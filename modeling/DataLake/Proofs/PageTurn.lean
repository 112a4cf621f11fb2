import DataLake.Listing
import DataLake.Proofs.Decoding
import DataLake.Proofs.Tries
import Mathlib.Data.List.Forall2

/-!
Asking for one page of a listing. A page is the items that the service lists, in its
order, after the listed directory itself when no token was sent; and everything that
asking for it can come to is one of five things, four of which leave the lister as it
was.
-/

namespace DataLake

/-- Mapping succeeds exactly if it does so at every place. -/
theorem mapM_eq_ok_iff {α β : Type} {f : α → Except Failure β} {xs : List α} {ys : List β} :
    xs.mapM f = .ok ys ↔ List.Forall₂ (fun x y => f x = .ok y) xs ys := by
  induction xs generalizing ys with
  | nil =>
      rw [List.mapM_nil, List.forall₂_nil_left_iff]
      exact ⟨fun h => (Except.ok.inj h).symm, fun h => h ▸ rfl⟩
  | cons x xs ih =>
      rw [List.mapM_cons]
      constructor
      · intro h
        obtain ⟨y, hy, hmore⟩ := bind_ok h
        obtain ⟨rest, hrest, hys⟩ := bind_ok hmore
        cases hys
        exact .cons hy (ih.mp hrest)
      · intro h
        cases h with
        | cons hy hrest =>
            rw [hy, ih.mpr hrest]
            rfl

namespace Listing

/-- The items in the body of a listing; an empty body has none. -/
def items? (depth : Nat) (body : Bytes) : Option (List Json) :=
  if body.isEmpty then some []
  else
    match Json.readBytes body depth with
    | .ok (.object fields) => (itemsOf fields).toOption
    | _ => none

/-- The entries are those of the items, one for each and in their order. -/
def EntriesOf (root : Text) (items : List Json) (entries : List Entry) : Prop :=
  List.Forall₂ (fun item e => entryOf root item = .ok e) items entries

theorem EntriesOf.append {root : Text} {items later : List Json} {entries more : List Entry}
    (h : EntriesOf root items entries) (hlater : EntriesOf root later more) :
    EntriesOf root (items ++ later) (entries ++ more) :=
  List.rel_append h hlater

theorem entriesOf_eq_ok_iff {root : Text} {depth : Nat} {body : Bytes} {entries : List Entry} :
    entriesOf root depth body = .ok entries ↔
      ∃ items, items? depth body = some items ∧ EntriesOf root items entries := by
  unfold EntriesOf
  simp only [← mapM_eq_ok_iff]
  unfold entriesOf items?
  dsimp only
  split
  · simp [itemsOf, Json.fieldOf, Json.isVoid, bind, Except.bind]
  · cases hread : Json.readBytes body depth with
    | error e => cases e <;> simp [bind, Except.bind]
    | ok value =>
        cases value with
        | object fields =>
            cases hitems : itemsOf fields <;> simp [bind, Except.bind, hitems, Except.toOption]
        | _ => simp [bind, Except.bind]

/-- How a response shows a page. A path that is not there has an empty page; any other
page begins with the listed directory when no token was sent. -/
inductive Shows (depth : Nat) (root path : Text) (token : Option Text) (r : Response) :
    ListPage → Prop where
  | missing (hstatus : r.status = 404) : Shows depth root path token r .empty
  | listed {items : List Json} {entries : List Entry} (hstatus : r.status = 200)
      (hitems : items? depth r.body = some items) (hentries : EntriesOf root items entries) :
      Shows depth root path token r
        ⟨(if (given token).isNone then [⟨path, { mode := .directory }⟩] else []) ++ entries,
          given (r.headers.get? continuationHeader)⟩

theorem shows_iff {depth : Nat} {root path : Text} {token : Option Text} {r : Response}
    {page : ListPage} :
    Shows depth root path token r page ↔
      ((r.within? [200, 404]).bind fun r => (pageOf root path token depth r).toOption) =
        some page := by
  unfold Response.within? pageOf
  constructor
  · intro h
    cases h with
    | missing hstatus => simp [hstatus, Except.toOption]
    | listed hstatus hitems hentries =>
        have hread := entriesOf_eq_ok_iff.mpr ⟨_, hitems, hentries⟩
        rw [if_pos (by simp [hstatus]), Option.bind_some, if_neg (by simp [hstatus]), hread]
        rfl
  · intro h
    obtain ⟨r', haccepted, hpage⟩ := Option.bind_eq_some_iff.mp h
    split at haccepted
    · next hstatus =>
      cases haccepted
      split at hpage
      · next hmissing =>
        cases hpage
        exact .missing hmissing
      · next hfound =>
        have hstatus : r.status = 200 := by simpa [hfound] using hstatus
        cases hentries : entriesOf root depth r.body with
        | error e =>
            rw [hentries] at hpage
            cases hpage
        | ok entries =>
            rw [hentries] at hpage
            cases hpage
            obtain ⟨items, hitems, hentries⟩ := entriesOf_eq_ok_iff.mp hentries
            exact .listed hstatus hitems hentries
    · cases haccepted

end Listing

namespace Backend

/-- What the service is sent for an operation, and the response to it. -/
inductive Sends (b : Backend) (op : Operation) (w : World) :
    List Exchange → Option Response → Prop where
  | nothing (hcannot : ¬ b.CanSign op w) : Sends b op w [] none
  | request (x : Exchange) (hsigned : b.Signs op x.request) : Sends b op w [x] x.response?

theorem exchange_sends (b : Backend) (op : Operation) (w : World) :
    ∃ xs, (b.exchange op w).2.exchanges = w.exchanges ++ xs ∧
      w.answers = xs.filterMap Exchange.reply ++ (b.exchange op w).2.answers ∧
      (b.exchange op w).2.room = w.room ∧ b.Sends op w xs (b.exchange op w).1.toOption := by
  have hexchanged := b.exchange_exchanged op w
  generalize b.exchange op w = out at hexchanged
  cases hexchanged with
  | unbuilt e hplain =>
      refine ⟨[], by simp, rfl, rfl, .nothing ?_⟩
      rintro ⟨plain, c, tokens, r, hbuilt, _⟩
      rw [hplain] at hbuilt
      cases hbuilt
  | unloaded plain e tokens hplain hload =>
      refine ⟨[], w.exchanges_after _ _ _, rfl, rfl, .nothing ?_⟩
      rintro ⟨_, c, tokens, r, _, hloaded, _⟩
      rw [hload] at hloaded
      cases hloaded
  | unsigned plain c e tokens hplain hload hsign =>
      refine ⟨[], w.exchanges_after _ _ _, rfl, rfl, .nothing ?_⟩
      rintro ⟨plain', c', tokens', r, hbuilt, hloaded, hsigned⟩
      rw [hplain] at hbuilt
      rw [hload] at hloaded
      cases hbuilt
      cases hloaded
      rw [hsigned] at hsign
      cases hsign
  | sent plain c x tokens hplain hload hsign hreply =>
      have hanswers : w.answers = [x].filterMap Exchange.reply ++ w.answers.tail := by
        cases h : w.answers <;> simp [hreply, h]
      have hresponse : x.outcome.toOption = x.response? := by
        unfold Exchange.outcome Exchange.response?
        rcases x.reply with _ | _ | _ <;> rfl
      refine ⟨[x], w.exchanges_after _ _ _, hanswers, rfl, ?_⟩
      dsimp only
      rw [hresponse]
      exact .request x ⟨plain, c, w.now, hplain, hsign⟩

/-- The query of a request reads back as the parameters of the operation. -/
theorem Signs.query {b : Backend} {op : Operation} {r : Request} (h : b.Signs op r)
    (hloc : b.location.Placed) :
    ∃ parts, Url.Parts.ofUrl? r.url = some parts ∧
      Url.decodeQuery parts.query = op.parameters b.location := by
  obtain ⟨plain, c, now, hplain, hsign⟩ := h
  have hurl := (Signing.sign_keeps b.version now c plain).2.1
  rw [hsign] at hurl
  obtain ⟨d, parts, hdraft, _, hparts, _, hfields, hquery, _⟩ := Operation.request_parts hloc hplain
  refine ⟨parts, by rw [hurl, hparts], ?_⟩
  rw [hquery, Url.decodeQuery_encodeQuery hfields, (Operation.draft_states hdraft).1]

end Backend

namespace Action

theorem mapFault_toOption {α : Type} (f : Fault → Fault) (x : Action α) (w : World) :
    (x.mapFault f w).2 = (x w).2 ∧ (x.mapFault f w).1.toOption = (x w).1.toOption := by
  unfold mapFault
  rcases x w with ⟨e | a, v⟩
  · cases e <;> exact ⟨rfl, rfl⟩
  · exact ⟨rfl, rfl⟩

theorem bind_ofExcept_toOption {α β : Type} (x : Action α) (look : α → Except Failure β)
    (w : World) :
    ((x >>= fun a => ofExcept (look a)) w).2 = (x w).2 ∧
      ((x >>= fun a => ofExcept (look a)) w).1.toOption =
        (x w).1.toOption.bind fun a => (look a).toOption := by
  change (Action.bind x _ w).2 = _ ∧ (Action.bind x _ w).1.toOption = _
  unfold Action.bind
  rcases x w with ⟨e | a, v⟩
  · exact ⟨rfl, rfl⟩
  · exact ⟨rfl, rfl⟩

end Action

namespace Listing

/-- A page is read with the room that there is before it is asked for. -/
theorem page_eq (b : Backend) (path : Text) (limit : Option Int) (token : Option Text)
    (w : World) :
    page b path limit token w =
      (b.perform (.list path token limit) [200, 404] >>= fun r =>
        Action.ofExcept (pageOf b.location.root path token w.room.nesting r)).mapFault
        (b.annotate "Lister::next_page" path) w :=
  rfl

/-- A page comes from the response to one request, and from nothing else. -/
theorem page_sends (b : Backend) (path : Text) (limit : Option Int) (token : Option Text)
    (w : World) :
    ∃ xs response, (page b path limit token w).2.exchanges = w.exchanges ++ xs ∧
      w.answers = xs.filterMap Exchange.reply ++ (page b path limit token w).2.answers ∧
      (page b path limit token w).2.room = w.room ∧
      b.Sends (.list path token limit) w xs response ∧
      ∀ p, (page b path limit token w).1.toOption = some p ↔
        ∃ r, response = some r ∧ Shows w.room.nesting b.location.root path token r p := by
  obtain ⟨xs, hexchanges, hanswers, hroom, hsends⟩ := b.exchange_sends (.list path token limit) w
  refine ⟨xs, (b.exchange (.list path token limit) w).1.toOption, ?_⟩
  simp only [shows_iff]
  rw [page_eq]
  obtain ⟨hworld, hresult⟩ := Action.mapFault_toOption (b.annotate "Lister::next_page" path)
    (b.perform (.list path token limit) [200, 404] >>= fun r =>
      Action.ofExcept (pageOf b.location.root path token w.room.nesting r)) w
  obtain ⟨hperformed, hread⟩ := Action.bind_ofExcept_toOption
    (b.perform (.list path token limit) [200, 404])
    (pageOf b.location.root path token w.room.nesting) w
  obtain ⟨hexchanged, haccepted⟩ := Action.bind_ofExcept_toOption
    (b.exchange (.list path token limit))
    (fun r => (accept [200, 404] w.room.nesting r).map fun _ => r) w
  rw [hworld, hresult, hperformed, hread, b.perform_eq, hexchanged, haccepted]
  refine ⟨hexchanges, hanswers, hroom, hsends, fun p => ?_⟩
  simp only [toOption_accept]
  rw [Option.bind_assoc, Option.bind_eq_some_iff]

structure State where
  lister : PageLister
  world : World

namespace State

def page (s : State) : Except Failure ListPage :=
  (s.lister.nextPage s.world).1

def next (s : State) : State :=
  ⟨(s.lister.nextPage s.world).2.1, (s.lister.nextPage s.world).2.2⟩

/-- The exchanges with the service that asking for the next page takes. -/
def made (s : State) : List Exchange :=
  s.next.world.exchanges.drop s.world.exchanges.length

/-- The response that the next page is made from; none when there is no new page. -/
def response? (s : State) : Option Response :=
  s.page.toOption.bind fun _ => s.made.head?.bind Exchange.response?

def asking (s : State) : Operation :=
  .list s.lister.path s.lister.token s.lister.limit

/-- A page can be asked for now. -/
def Waits (s : State) : Prop :=
  s.lister.done = false ∧ s.world.isRaised s.lister.flag = false

end State

end Listing

/-- The lister when it has come to a page: it goes on at the continuation, and without
one the listing is done. -/
def PageLister.turned (l : PageLister) (continuation : Option Text) : PageLister :=
  match continuation with
  | some token => { l with token := some token }
  | none => { l with done := true }

namespace Listing

/-- Everything that asking for the next page can come to: what it gives, what the
service is sent for it, and the lister after it. -/
inductive Asked (s : State) : Except Failure ListPage → List Exchange → PageLister → Prop where
  | finished (hdone : s.lister.done = true) : Asked s (.ok .empty) [] s.lister
  | halted (hopen : s.lister.done = false) (hhalted : s.world.isRaised s.lister.flag = true) :
      Asked s (.error .halted) [] s.lister
  | unsent (e : Failure) (hwaits : s.Waits)
      (hcannot : ¬ s.lister.backend.CanSign s.asking s.world) : Asked s (.error e) [] s.lister
  | refused (e : Failure) (x : Exchange) (hwaits : s.Waits)
      (hsigned : s.lister.backend.Signs s.asking x.request)
      (hnone : ∀ r page, x.response? = some r →
        ¬ Shows s.world.room.nesting s.lister.backend.location.root s.lister.path s.lister.token r
          page) :
      Asked s (.error e) [x] s.lister
  | shown (page : ListPage) (x : Exchange) (r : Response) (hwaits : s.Waits)
      (hsigned : s.lister.backend.Signs s.asking x.request) (hresponse : x.response? = some r)
      (hshows : Shows s.world.room.nesting s.lister.backend.location.root s.lister.path
        s.lister.token r page) :
      Asked s (.ok page) [x] (s.lister.turned page.continuation)

private theorem asks (s : State) :
    ∃ xs, s.next.world.exchanges = s.world.exchanges ++ xs ∧
      s.world.answers = xs.filterMap Exchange.reply ++ s.next.world.answers ∧
      s.next.world.room = s.world.room ∧ Asked s s.page xs s.next.lister := by
  unfold State.next State.page PageLister.nextPage
  split
  · next hdone => exact ⟨[], by simp, rfl, rfl, .finished hdone⟩
  · next hopen =>
    split
    · next hhalted => exact ⟨[], by simp, rfl, rfl, .halted (by simpa using hopen) hhalted⟩
    · next hup =>
      have hwaits : s.Waits := ⟨by simpa using hopen, by simpa using hup⟩
      obtain ⟨xs, response, hexchanges, hanswers, hroom, hsends, hshown⟩ :=
        page_sends s.lister.backend s.lister.path s.lister.limit s.lister.token s.world
      refine ⟨xs, ?_⟩
      rcases hpage : page s.lister.backend s.lister.path s.lister.limit s.lister.token
        s.world with ⟨e | page, w⟩
      · rw [hpage] at hexchanges hanswers hroom hshown
        refine ⟨hexchanges, hanswers, hroom, ?_⟩
        cases hsends with
        | nothing hcannot => exact .unsent e hwaits hcannot
        | request x hsigned =>
            refine .refused e x hwaits hsigned fun r page hr hshows => ?_
            cases (hshown page).mpr ⟨r, hr, hshows⟩
      · rw [hpage] at hexchanges hanswers hroom hshown
        obtain ⟨r, hr, hshows⟩ := (hshown page).mp rfl
        cases hsends with
        | nothing hcannot => cases hr
        | request x hsigned =>
            have hasked := Asked.shown page x r hwaits hsigned hr hshows
            unfold PageLister.turned at hasked
            dsimp only
            split
            · next token htoken =>
              rw [htoken] at hasked
              exact ⟨hexchanges, hanswers, hroom, hasked⟩
            · next hlast =>
              rw [hlast] at hasked
              exact ⟨hexchanges, hanswers, hroom, hasked⟩

theorem State.asked (s : State) : Asked s s.page s.made s.next.lister := by
  obtain ⟨xs, hexchanges, _, _, hasked⟩ := asks s
  unfold made
  rwa [hexchanges, List.drop_left]

theorem State.next_exchanges (s : State) :
    s.next.world.exchanges = s.world.exchanges ++ s.made := by
  obtain ⟨xs, hexchanges, _⟩ := asks s
  unfold made
  rw [hexchanges, List.drop_left]

/-- Asking takes the answers to its own requests, and no others. -/
theorem State.answers_eq (s : State) :
    s.world.answers = s.made.filterMap Exchange.reply ++ s.next.world.answers := by
  obtain ⟨xs, hexchanges, hanswers, _⟩ := asks s
  unfold made
  rwa [hexchanges, List.drop_left]

theorem State.next_room (s : State) : s.next.world.room = s.world.room := by
  obtain ⟨xs, _, _, hroom, _⟩ := asks s
  exact hroom

end Listing

end DataLake
