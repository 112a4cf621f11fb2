import DataLake.Proofs.Course
import DataLake.Proofs.PageTurn

/-!
Bodies of listings. Reading one ends in the entries, or in a fault that blames the response,
unless a value stands where the reading cannot go on from it. Which values these are is said
here for each part of a body: the reading goes from item to item and from field to field, so
only the first such value counts, and only if nothing before it was blamed.
-/

namespace DataLake

/-- A reading gives something, or blames the response, or stops with one of the failures that
`stops` tells, which are no faults. -/
structure Settles {α : Type} (result : Except Failure α) (stops : Failure → Prop) : Prop where
  blamed : ∀ e, result = .error e →
    stops e ∨ ∃ cause : Cause, cause.family = .response ∧ e = .ofCause cause
  stopped : ∀ e, stops e → result = .error e ∧ ∀ f, e ≠ .fault f

namespace Settles

variable {α β : Type} {stops : Failure → Prop}

theorem ok (a : α) (hstops : ∀ e, ¬ stops e) : Settles (.ok a) stops :=
  ⟨by rintro _ ⟨⟩, fun e he => absurd he (hstops e)⟩

theorem blame {cause : Cause} (hfamily : cause.family = .response) (hstops : ∀ e, ¬ stops e) :
    Settles (.error (.ofCause cause) : Except Failure α) stops := by
  refine ⟨?_, fun e he => absurd he (hstops e)⟩
  rintro _ ⟨⟩
  exact .inr ⟨cause, hfamily, rfl⟩

theorem stop {e : Failure} (hplain : ∀ f, e ≠ .fault f) (hstops : stops e)
    (honly : ∀ e', stops e' → e' = e) : Settles (.error e : Except Failure α) stops := by
  constructor
  · rintro _ ⟨⟩
    exact .inl hstops
  · intro e' he'
    cases honly e' he'
    exact ⟨rfl, hplain⟩

theorem congr {stops' : Failure → Prop} {result : Except Failure α} (h : Settles result stops)
    (hiff : ∀ e, stops' e ↔ stops e) : Settles result stops' := by
  rwa [funext fun e => propext (hiff e)]

theorem map {result : Except Failure α} (h : Settles result stops) (f : α → β) :
    Settles (result.map f) stops := by
  cases result with
  | error e =>
      constructor
      · rintro _ ⟨⟩
        exact h.blamed e rfl
      · intro e' he'
        obtain ⟨hsame, hplain⟩ := h.stopped e' he'
        cases hsame
        exact ⟨rfl, hplain⟩
  | ok a => exact ok (f a) fun e he => nomatch (h.stopped e he).1

/-- What comes next is read only when the first reading gave something. -/
theorem bind {result : Except Failure α} {next : α → Except Failure β}
    {later : α → Failure → Prop} (h : Settles result stops)
    (hnext : ∀ a, result = .ok a → Settles (next a) (later a)) :
    Settles (result >>= next) fun e => stops e ∨ ∃ a, result = .ok a ∧ later a e := by
  cases result with
  | error e =>
      constructor
      · intro e' he'
        cases he'
        exact (h.blamed e rfl).imp_left .inl
      · rintro e' (he' | ⟨_, ⟨⟩, _⟩)
        obtain ⟨hsame, hplain⟩ := h.stopped e' he'
        cases hsame
        exact ⟨rfl, hplain⟩
  | ok a =>
      have hnone (e : Failure) : ¬ stops e := fun he => nomatch (h.stopped e he).1
      refine (hnext a rfl).congr fun e => ?_
      rw [or_iff_right (hnone e)]
      constructor
      · rintro ⟨_, ⟨⟩, he⟩
        exact he
      · exact fun he => ⟨a, rfl, he⟩

/-- A list is read up to the first item that does not give something. -/
theorem mapM {f : α → Except Failure β} {each : α → Failure → Prop} {xs : List α}
    (h : ∀ x, Settles (f x) (each x)) :
    Settles (xs.mapM f) fun e => ∃ before x after, xs = before ++ x :: after ∧
      (∀ y ∈ before, ∃ b, f y = .ok b) ∧ each x e := by
  induction xs with
  | nil =>
      rw [List.mapM_nil]
      apply ok
      rintro e ⟨before, x, after, hsplit, -⟩
      have hlength := congrArg List.length hsplit
      simp at hlength
  | cons x xs ih =>
      rw [List.mapM_cons]
      refine ((h x).bind fun b _ => ih.bind fun bs _ => ok (b :: bs) fun _ => not_false).congr ?_
      intro e
      constructor
      · rintro ⟨before, y, after, hsplit, hbefore, hy⟩
        cases before with
        | nil =>
            cases hsplit
            exact .inl hy
        | cons z before =>
            rw [List.cons_append, List.cons.injEq] at hsplit
            obtain ⟨rfl, hsplit⟩ := hsplit
            obtain ⟨hfirst, hbefore⟩ := List.forall_mem_cons.mp hbefore
            obtain ⟨b, hb⟩ := hfirst
            exact .inr ⟨b, hb, .inl ⟨before, y, after, hsplit, hbefore, hy⟩⟩
      · rintro (hx | ⟨b, hb, ⟨before, y, after, rfl, hbefore, hy⟩ | ⟨_, _, hfalse⟩⟩)
        · exact ⟨[], x, xs, rfl, List.forall_mem_nil _, hx⟩
        · exact ⟨x :: before, y, after, rfl, List.forall_mem_cons.mpr ⟨⟨b, hb⟩, hbefore⟩, hy⟩
        · exact hfalse.elim

end Settles

theorem Action.bind_of_ok {α β : Type} {x : Action α} {f : α → Action β} {a : α} {w : World}
    (h : (x w).1 = .ok a) : (x >>= f) w = f a (x w).2 := by
  change Action.bind x f w = _
  unfold Action.bind
  rcases hx : x w with ⟨e | a', v⟩
  · rw [hx] at h
    cases h
  · rw [hx] at h
    cases h
    rfl

/-- A response with an accepted status is what performing the operation gives. -/
theorem Backend.perform_of_exchange {b : Backend} {op : Operation} {statuses : List Int}
    {w : World} {r : Response} (hexchange : (b.exchange op w).1 = .ok r)
    (hstatus : r.status ∈ statuses) : (b.perform op statuses w).1 = .ok r := by
  have haccept : accept statuses w.room.nesting r = .ok () :=
    if_pos (List.contains_iff_mem.mpr hstatus)
  rw [b.perform_eq, Action.bind_of_ok hexchange, haccept]
  rfl

namespace Listing

/-- A value that is neither text nor empty. -/
def NoText (value : Json) : Prop :=
  value.isVoid = false ∧ ∀ t, value ≠ .string t

/-- The lengths that cannot be read at all. -/
inductive LengthStops : Json → Failure → Prop where
  | infinite (negative : Bool) : LengthStops (.float (.infinite negative)) .numberTooLarge
  | array (item : Json) (items : List Json) : LengthStops (.array (item :: items)) .wrongKind
  | object (field : Text × Json) (fields : List (Text × Json)) :
      LengthStops (.object (field :: fields)) .wrongKind

/-- The dates that cannot be read at all. -/
inductive DateStops : Json → Failure → Prop where
  | noText {value : Json} (h : NoText value) : DateStops value .wrongShape
  | outOfBounds {t : Text} (hsome : t ≠ []) (h : Calendar.readHeaderDate t = .error .outOfBounds) :
      DateStops (.string t) .numberTooLarge

/-- Where the reading of an item stops. Its length is read first, then its date, its entity
tag and its name, and the reading stops only at a value that is come to. -/
inductive ItemStops : Json → Failure → Prop where
  | noObject {item : Json} (h : ∀ fields, item ≠ .object fields) : ItemStops item .wrongShape
  | length {fields : List (Text × Json)} {e : Failure}
      (h : LengthStops ((Json.fieldOf fields "contentLength").getD (.string [])) e) :
      ItemStops (.object fields) e
  | date {fields : List (Text × Json)} {n : Int} {e : Failure} (hlength : entryLength fields = .ok n)
      (h : DateStops ((Json.fieldOf fields "lastModified").getD .null) e) :
      ItemStops (.object fields) e
  | tag {fields : List (Text × Json)} {n : Int} {date : Option Calendar.DateTime}
      (hlength : entryLength fields = .ok n) (hdate : entryDate fields = .ok date)
      (h : NoText ((Json.fieldOf fields "etag").getD .null)) : ItemStops (.object fields) .wrongShape
  | name {fields : List (Text × Json)} {n : Int} {date : Option Calendar.DateTime} {tag : Json}
      (hlength : entryLength fields = .ok n) (hdate : entryDate fields = .ok date)
      (htag : entryTag fields = .ok tag)
      (h : ∀ t, (Json.fieldOf fields "name").getD (.string []) ≠ .string t) :
      ItemStops (.object fields) .wrongShape

/-- A number that is not zero, or the truth: it has no items. -/
inductive Countless : Json → Prop where
  | truth : Countless (.bool true)
  | integer {n : Int} (h : n ≠ 0) : Countless (.integer n)
  | float {x : Double} (h : x.isZero = false) : Countless (.float x)

/-- Where the reading of a body stops: it is nested too deep, its paths cannot be gone
through, or the first item that has no entry stops the reading. -/
inductive BodyStops (root : Text) (depth : Nat) (body : Bytes) : Failure → Prop where
  | depth (h : Json.readBytes body depth = .error .tooDeep) :
      BodyStops root depth body .nestedTooDeep
  | paths {fields : List (Text × Json)} (hread : Json.readBytes body depth = .ok (.object fields))
      (h : Countless ((Json.fieldOf fields "paths").getD .null)) :
      BodyStops root depth body .wrongKind
  | item {before after : List Json} {item : Json} {e : Failure}
      (hitems : items? depth body = some (before ++ item :: after))
      (hbefore : ∀ earlier ∈ before, ∃ entry, entryOf root earlier = .ok entry)
      (h : ItemStops item e) : BodyStops root depth body e

section Fields

variable (fields : List (Text × Json))

theorem entryLength_settles :
    Settles (entryLength fields)
      (LengthStops ((Json.fieldOf fields "contentLength").getD (.string []))) := by
  unfold entryLength
  generalize (Json.fieldOf fields "contentLength").getD (.string []) = value
  cases value with
  | null => exact .ok 0 (by rintro _ ⟨⟩)
  | bool b => cases b <;> exact .ok _ (by rintro _ ⟨⟩)
  | integer n =>
      dsimp only
      split <;> exact .ok _ (by rintro _ ⟨⟩)
  | float x =>
      cases x with
      | notANumber => exact .blame rfl (by rintro _ ⟨⟩)
      | infinite negative =>
          apply Settles.stop (by simp) (.infinite negative)
          rintro _ ⟨⟩
          rfl
      | finite negative mantissa exponent =>
          dsimp only [Double.truncate?]
          split <;> exact .ok _ (by rintro _ ⟨⟩)
  | string t =>
      dsimp only
      split
      · exact .ok _ (by rintro _ ⟨⟩)
      · split
        · exact .ok _ (by rintro _ ⟨⟩)
        · exact .blame rfl (by rintro _ ⟨⟩)
  | array items =>
      cases items with
      | nil => exact .ok 0 (by rintro _ ⟨⟩)
      | cons item items =>
          apply Settles.stop (by simp) (.array item items)
          rintro _ ⟨⟩
          rfl
  | object fields =>
      cases fields with
      | nil => exact .ok 0 (by rintro _ ⟨⟩)
      | cons field fields =>
          apply Settles.stop (by simp) (.object field fields)
          rintro _ ⟨⟩
          rfl

theorem readDate_settles {t : Text} (hsome : t ≠ []) :
    Settles (readDate t) (DateStops (.string t)) := by
  have htext : ¬ NoText (.string t) := fun h => h.2 t rfl
  unfold readDate
  cases hdate : Calendar.readHeaderDate t with
  | ok date =>
      apply Settles.ok
      rintro e (hnone | ⟨-, hbounds⟩)
      · exact htext hnone
      · cases hdate.symm.trans hbounds
  | error e =>
      cases e with
      | malformed =>
          apply Settles.blame rfl
          rintro e (hnone | ⟨-, hbounds⟩)
          · exact htext hnone
          · cases hdate.symm.trans hbounds
      | outOfBounds =>
          apply Settles.stop (by simp) (.outOfBounds hsome hdate)
          rintro e (hnone | -)
          · exact absurd hnone htext
          · rfl

theorem entryDate_settles :
    Settles (entryDate fields) (DateStops ((Json.fieldOf fields "lastModified").getD .null)) := by
  unfold entryDate
  generalize (Json.fieldOf fields "lastModified").getD .null = value
  split
  · next t =>
    split
    · next hempty =>
      apply Settles.ok
      rintro e (hnone | ⟨hsome, -⟩)
      · exact hnone.2 t rfl
      · exact hsome (List.isEmpty_iff.mp hempty)
    · next hsome =>
      exact (readDate_settles fun hnone => hsome (List.isEmpty_iff.mpr hnone)).map some
  · next hkind =>
    split
    · next hvoid =>
      apply Settles.ok
      rintro e (hnone | -)
      · exact Bool.false_ne_true (hnone.1.symm.trans hvoid)
      · exact hkind _ rfl
    · next hsome =>
      apply Settles.stop (by simp) (.noText ⟨Bool.eq_false_iff.mpr hsome, hkind⟩)
      rintro e (- | -)
      · rfl
      · exact absurd rfl (hkind _)

theorem entryTag_settles :
    Settles (entryTag fields) fun e =>
      e = .wrongShape ∧ NoText ((Json.fieldOf fields "etag").getD .null) := by
  unfold entryTag
  generalize (Json.fieldOf fields "etag").getD .null = value
  split
  · next t =>
    have htext : ¬ NoText (.string t) := fun h => h.2 t rfl
    dsimp only
    split <;> exact .ok _ fun _ h => htext h.2
  · next hkind =>
    split
    · next hvoid => exact .ok _ fun _ h => Bool.false_ne_true (h.2.1.symm.trans hvoid)
    · next hsome =>
      exact .stop (by simp) ⟨rfl, Bool.eq_false_iff.mpr hsome, hkind⟩ fun _ h => h.1

theorem entryName_settles :
    Settles (entryName fields) fun e =>
      e = .wrongShape ∧ ∀ t, (Json.fieldOf fields "name").getD (.string []) ≠ .string t := by
  unfold entryName
  generalize (Json.fieldOf fields "name").getD (.string []) = value
  split
  · exact .ok _ fun _ h => h.2 _ rfl
  · next hkind => exact .stop (by simp) ⟨rfl, hkind⟩ fun _ h => h.1

theorem itemsOf_settles :
    Settles (itemsOf fields) fun e =>
      e = .wrongKind ∧ Countless ((Json.fieldOf fields "paths").getD .null) := by
  unfold itemsOf
  generalize (Json.fieldOf fields "paths").getD .null = value
  have hreads {items : List Json} (hsome : ¬ Countless value) :
      Settles (.ok items) fun e => e = Failure.wrongKind ∧ Countless value :=
    .ok items fun _ h => hsome h.2
  have hfails (hnone : Countless value) :
      Settles (.error .wrongKind : Except Failure (List Json)) fun e =>
        e = .wrongKind ∧ Countless value :=
    .stop (by simp) ⟨rfl, hnone⟩ fun _ h => h.1
  cases value with
  | null => exact hreads (by rintro ⟨⟩)
  | bool b =>
      cases b with
      | false => exact hreads (by rintro ⟨⟩)
      | true => exact hfails .truth
  | integer n =>
      by_cases hn : n = 0
      · cases hn
        apply hreads
        rintro (_ | hsome | _)
        exact hsome rfl
      · have hvoid : ¬ (Json.integer n).isVoid = true := by simpa [Json.isVoid] using hn
        dsimp only
        rw [if_neg hvoid]
        exact hfails (.integer hn)
  | float x =>
      cases hx : x.isZero with
      | false =>
          have hvoid : ¬ (Json.float x).isVoid = true := by simp [Json.isVoid, hx]
          dsimp only
          rw [if_neg hvoid]
          exact hfails (.float hx)
      | true =>
          have hvoid : (Json.float x).isVoid = true := hx
          dsimp only
          rw [if_pos hvoid]
          apply hreads
          rintro (_ | _ | hsome)
          exact Bool.false_ne_true (hsome.symm.trans hx)
  | string t =>
      dsimp only
      split <;> exact hreads (by rintro ⟨⟩)
  | array items =>
      dsimp only
      split <;> exact hreads (by rintro ⟨⟩)
  | object members =>
      dsimp only
      split <;> exact hreads (by rintro ⟨⟩)

end Fields

section Bodies

variable (root : Text)

theorem entryOf_settles (item : Json) : Settles (entryOf root item) (ItemStops item) := by
  have hkind (hitem : ∀ fields, item ≠ .object fields) :
      Settles (.error .wrongShape : Except Failure Entry) (ItemStops item) := by
    apply Settles.stop (by simp) (.noObject hitem)
    rintro e he
    cases he with
    | noObject => rfl
    | _ => exact absurd rfl (hitem _)
  cases item with
  | object fields =>
      refine ((entryLength_settles fields).bind fun n _ => (entryDate_settles fields).bind
        fun date _ => (entryTag_settles fields).bind fun tag _ => (entryName_settles fields).bind
          fun name _ => .ok _ fun _ => not_false).congr fun e => ?_
      constructor
      · intro h
        cases h with
        | noObject h => exact absurd rfl (h fields)
        | length h => exact .inl h
        | date hlength h => exact .inr ⟨_, hlength, .inl h⟩
        | tag hlength hdate h => exact .inr ⟨_, hlength, .inr ⟨_, hdate, .inl ⟨rfl, h⟩⟩⟩
        | name hlength hdate htag h =>
            exact .inr ⟨_, hlength, .inr ⟨_, hdate, .inr ⟨_, htag, .inl ⟨rfl, h⟩⟩⟩⟩
      · rintro (h | ⟨n, hlength, h | ⟨date, hdate, ⟨rfl, h⟩ | ⟨tag, htag, ⟨rfl, h⟩ | ⟨_, _, hfalse⟩⟩⟩⟩)
        · exact .length h
        · exact .date hlength h
        · exact .tag hlength hdate h
        · exact .name hlength hdate htag h
        · exact hfalse.elim
  | _ => exact hkind nofun

/-- A body without items has no item that the reading could stop at. -/
theorem not_bodyStops_nil (depth : Nat) (e : Failure) : ¬ BodyStops root depth [] e := by
  rintro (⟨⟨⟩⟩ | ⟨⟨⟩, -⟩ | ⟨hitems, -, -⟩)
  have hsplit := Option.some.inj hitems
  exact List.append_ne_nil_of_right_ne_nil _ (List.cons_ne_nil _ _) hsplit.symm

variable {root} {depth : Nat} {body : Bytes} {e : Failure}

theorem bodyStops_of_unread (hsome : body ≠ [])
    (hread : ∀ fields, Json.readBytes body depth ≠ .ok (.object fields))
    (h : BodyStops root depth body e) :
    Json.readBytes body depth = .error .tooDeep ∧ e = .nestedTooDeep := by
  cases h with
  | depth hdepth => exact ⟨hdepth, rfl⟩
  | paths hfields => exact absurd hfields (hread _)
  | item hitems =>
      unfold items? at hitems
      rw [if_neg (by simpa using hsome)] at hitems
      split at hitems
      · next fields hfields => exact absurd hfields (hread fields)
      · cases hitems

theorem bodyStops_of_object (hsome : body ≠ []) {fields : List (Text × Json)}
    (hread : Json.readBytes body depth = .ok (.object fields)) :
    BodyStops root depth body e ↔
      (e = .wrongKind ∧ Countless ((Json.fieldOf fields "paths").getD .null)) ∨
        ∃ items, itemsOf fields = .ok items ∧ ∃ before item after,
          items = before ++ item :: after ∧
            (∀ earlier ∈ before, ∃ entry, entryOf root earlier = .ok entry) ∧ ItemStops item e := by
  have hitems? : items? depth body = (itemsOf fields).toOption := by
    unfold items?
    rw [if_neg (by simpa using hsome), hread]
  constructor
  · rintro (hdepth | ⟨hfields, h⟩ | ⟨hitems, hbefore, h⟩)
    · cases hread.symm.trans hdepth
    · cases hread.symm.trans hfields
      exact .inl ⟨rfl, h⟩
    · rw [hitems?] at hitems
      cases hfound : itemsOf fields with
      | error e =>
          rw [hfound] at hitems
          cases hitems
      | ok items =>
          rw [hfound] at hitems
          cases hitems
          exact .inr ⟨_, rfl, _, _, _, rfl, hbefore, h⟩
  · rintro (⟨rfl, h⟩ | ⟨items, hitems, before, item, after, rfl, hbefore, h⟩)
    · exact .paths hread h
    · have hsplit : items? depth body = some (before ++ item :: after) := by
        rw [hitems?, hitems]
        rfl
      exact .item hsplit hbefore h

/-- Reading a body ends in entries, or blames the response, or stops as `BodyStops` says. -/
theorem entriesOf_settles (root : Text) (depth : Nat) (body : Bytes) :
    Settles (entriesOf root depth body) (BodyStops root depth body) := by
  by_cases hempty : body = []
  · rw [hempty]
    exact .ok [] (not_bodyStops_nil root depth)
  · unfold entriesOf
    rw [if_neg (by simpa using hempty)]
    cases hread : Json.readBytes body depth with
    | error e =>
        have hunread : ∀ fields, Json.readBytes body depth ≠ .ok (.object fields) := by
          intro fields hfields
          cases hread.symm.trans hfields
        cases e with
        | malformed =>
            apply Settles.blame rfl
            intro e h
            cases hread.symm.trans (bodyStops_of_unread hempty hunread h).1
        | tooDeep =>
            apply Settles.stop (by simp) (.depth hread)
            intro e h
            exact (bodyStops_of_unread hempty hunread h).2
    | ok value =>
        cases value with
        | object fields =>
            exact ((itemsOf_settles fields).bind fun items _ =>
              .mapM (entryOf_settles root)).congr fun e => bodyStops_of_object hempty hread
        | _ =>
            apply Settles.blame rfl
            intro e h
            refine absurd (bodyStops_of_unread hempty ?_ h).1 ?_
            · intro fields hfields
              cases hread.symm.trans hfields
            · intro hdepth
              cases hread.symm.trans hdepth

end Bodies

/-- The fault of a page that blames the response and tells where it left the listing. -/
def pageFault (b : Backend) (path : Text) (cause : Cause) : Fault where
  cause := cause
  operation := some "Lister::next_page"
  context := [("service", Backend.serviceName), ("filesystem", b.location.filesystem),
    ("path", path)]

/-- What a listing is to give for a response: its page, or a fault that blames it. -/
inductive Answers (b : Backend) (depth : Nat) (path : Text) (token : Option Text) (r : Response) :
    Except Failure ListPage → Prop where
  | page {page : ListPage} (h : Shows depth b.location.root path token r page) :
      Answers b depth path token r (.ok page)
  | fault {cause : Cause} (h : cause.family = .response) :
      Answers b depth path token r (.error (.fault (pageFault b path cause)))

section Pages

variable {b : Backend} {path : Text} {limit : Option Int} {token : Option Text} {w : World}
  {r : Response}

theorem mapFault_of_plain {f : Fault → Fault} {e : Failure} (hplain : ∀ f, e ≠ .fault f) :
    e.mapFault f = e := by
  cases e with
  | fault f => exact absurd rfl (hplain f)
  | _ => rfl

theorem page_of_exchange (hexchange : (b.exchange (.list path token limit) w).1 = .ok r)
    (hstatus : r.status = 200) :
    (page b path limit token w).1 =
      (pageOf b.location.root path token w.room.nesting r).mapError
        (Failure.mapFault (b.annotate "Lister::next_page" path)) := by
  have hperform : (b.perform (.list path token limit) [200, 404] w).1 = .ok r :=
    Backend.perform_of_exchange hexchange (by simp [hstatus])
  rw [page_eq, Action.mapFault_eq, Action.bind_of_ok hperform]
  rfl

theorem page_of_entries {entries : List Entry}
    (hexchange : (b.exchange (.list path token limit) w).1 = .ok r) (hstatus : r.status = 200)
    (hentries : entriesOf b.location.root w.room.nesting r.body = .ok entries) :
    Answers b w.room.nesting path token r (page b path limit token w).1 := by
  obtain ⟨items, hitems, hof⟩ := entriesOf_eq_ok_iff.mp hentries
  rw [page_of_exchange hexchange hstatus, pageOf, if_neg (by simp [hstatus]), hentries]
  exact .page (.listed hstatus hitems hof)

theorem page_of_error {e : Failure}
    (hexchange : (b.exchange (.list path token limit) w).1 = .ok r) (hstatus : r.status = 200)
    (hentries : entriesOf b.location.root w.room.nesting r.body = .error e) :
    (page b path limit token w).1 =
      .error (e.mapFault (b.annotate "Lister::next_page" path)) := by
  rw [page_of_exchange hexchange hstatus, pageOf, if_neg (by simp [hstatus]), hentries]
  rfl

theorem page_answers (hexchange : (b.exchange (.list path token limit) w).1 = .ok r)
    (hstatus : r.status = 200) (hgoes : ∀ e, ¬ BodyStops b.location.root w.room.nesting r.body e) :
    Answers b w.room.nesting path token r (page b path limit token w).1 := by
  cases hentries : entriesOf b.location.root w.room.nesting r.body with
  | ok entries => exact page_of_entries hexchange hstatus hentries
  | error e =>
      obtain ⟨cause, hfamily, rfl⟩ :=
        ((entriesOf_settles _ _ _).blamed e hentries).resolve_left (hgoes e)
      rw [page_of_error hexchange hstatus hentries]
      exact .fault hfamily

theorem page_stops {e : Failure} (hexchange : (b.exchange (.list path token limit) w).1 = .ok r)
    (hstatus : r.status = 200) (hstops : BodyStops b.location.root w.room.nesting r.body e) :
    (page b path limit token w).1 = .error e ∧ ∀ f, e ≠ .fault f := by
  obtain ⟨hentries, hplain⟩ := (entriesOf_settles _ _ _).stopped e hstops
  refine ⟨?_, hplain⟩
  rw [page_of_error hexchange hstatus hentries, mapFault_of_plain hplain]

/-- The response to a listing is answered with its page or with a fault that blames it,
unless the reading of the body stops; then the failure comes out as it is. -/
theorem page_answers_iff (hexchange : (b.exchange (.list path token limit) w).1 = .ok r)
    (hstatus : r.status = 200) :
    (Answers b w.room.nesting path token r (page b path limit token w).1 ↔
        ∀ e, ¬ BodyStops b.location.root w.room.nesting r.body e) ∧
      ∀ e, BodyStops b.location.root w.room.nesting r.body e →
        (page b path limit token w).1 = .error e ∧ ∀ f, e ≠ .fault f := by
  refine ⟨⟨?_, page_answers hexchange hstatus⟩, fun e => page_stops hexchange hstatus⟩
  intro hanswers e hstops
  obtain ⟨hpage, hplain⟩ := page_stops hexchange hstatus hstops
  rw [hpage] at hanswers
  cases hanswers
  exact hplain _ rfl

end Pages

/-- A listing of one item with the given length. -/
def lengthBody (length : String) : Bytes :=
  ("\x7b\"paths\":[\x7b\"name\":\"a\",\"contentLength\":" ++ length ++ "\x7d]\x7d").toList.map
    fun c => UInt8.ofNat c.toNat

theorem exchange_listing (body : Bytes) :
    (filesBackend.exchange (.list "dir" none none) (answering ⟨200, [], body, "OK"⟩)).1 =
      .ok ⟨200, [], body, "OK"⟩ :=
  exchange_answering (by decide +kernel) ⟨200, [], body, "OK"⟩

def overflows {α : Type} : Except Failure α → Bool
  | .error .numberTooLarge => true
  | _ => false

theorem overflows_iff {α : Type} (result : Except Failure α) :
    overflows result = true ↔ result = .error .numberTooLarge := by
  constructor
  · intro h
    unfold overflows at h
    split at h
    · rfl
    · cases h
  · rintro rfl
    rfl

theorem entriesOf_infinity :
    entriesOf filesBackend.location.root Room.usual.nesting (lengthBody "Infinity") =
      .error .numberTooLarge :=
  (overflows_iff _).mp (by decide +kernel)

theorem bodyStops_infinity :
    BodyStops filesBackend.location.root Room.usual.nesting (lengthBody "Infinity")
      .numberTooLarge := by
  refine ((entriesOf_settles _ _ _).blamed _ entriesOf_infinity).resolve_right ?_
  rintro ⟨_, _, ⟨⟩⟩

/-- An empty body is answered, and one with an infinite length is not. -/
theorem page_answers_nil :
    Answers filesBackend Room.usual.nesting "dir" none ⟨200, [], [], "OK"⟩
        (page filesBackend "dir" none none (answering ⟨200, [], [], "OK"⟩)).1 ∧
      ¬ Answers filesBackend Room.usual.nesting "dir" none ⟨200, [], lengthBody "Infinity", "OK"⟩
        (page filesBackend "dir" none none
          (answering ⟨200, [], lengthBody "Infinity", "OK"⟩)).1 := by
  constructor
  · exact (page_answers_iff (exchange_listing []) rfl).1.mpr (not_bodyStops_nil _ _)
  · intro h
    exact (page_answers_iff (exchange_listing _) rfl).1.mp h _ bodyStops_infinity

/-- An infinite length is not blamed: the failure of computing with it comes out. -/
theorem infinite_length_unblamed :
    (page filesBackend "dir" none none (answering ⟨200, [], lengthBody "Infinity", "OK"⟩)).1 =
      .error .numberTooLarge :=
  (page_stops (exchange_listing _) rfl bodyStops_infinity).1

end Listing

end DataLake
