import DataLake.Proofs.AppendTurn
import DataLake.Proofs.ListingRun
import DataLake.Proofs.Plan

/-!
The plans of a backend and of its objects. An operation of a backend runs one errand or
two. A writer and a lister run errands of their own path and look at their flag in
between; a step of theirs leaves them on the same backend, with the same path and flag.
-/

namespace DataLake

section

variable {b : Backend} {flag : Option Text} {asks : Errand → Prop}

theorem Action.ofExcept_bind {α β : Type} (x : Except Failure α) (f : α → Except Failure β) :
    (Action.ofExcept x >>= fun a => Action.ofExcept (f a)) = Action.ofExcept (x >>= f) := by
  cases x <;> rfl

theorem Action.mapFault_bind {α β : Type} (g : Fault → Fault) (x : Action α) (f : α → Action β) :
    Action.mapFault g (x >>= f) = Action.mapFault g x >>= fun a => Action.mapFault g (f a) := by
  funext w
  rw [Action.mapFault_eq]
  change ((Action.bind x f w).1.mapError _, (Action.bind x f w).2) = Action.bind _ _ w
  unfold Action.bind
  rw [Action.mapFault_eq]
  rcases x w with ⟨e | a, v⟩
  · rfl
  · exact (Action.mapFault_eq g (f a) v).symm

theorem Action.mapFault_mapFault {α : Type} (f g : Fault → Fault) (x : Action α) :
    Action.mapFault f (Action.mapFault g x) = Action.mapFault (fun e => f (g e)) x := by
  funext w
  simp only [Action.mapFault_eq]
  rcases x w with ⟨e | a, v⟩
  · cases e <;> rfl
  · rfl

/-- An errand of which only the status matters. -/
theorem Errand.conducted_unit {e : Errand} (he : asks e) (b : Backend) :
    Conducted b flag asks
      (Action.mapFault (e.mark b) (b.perform e.operation e.accepted >>= fun _ => pure ())) :=
  Errand.conducted he b (fun _ => .ok ()) fun _ => noRefusal_ok ()

namespace Backend

theorem createDir_conducted {path : Text} (he : asks (.makeDirectory path)) :
    Conducted b flag asks (b.createDir path) :=
  Errand.conducted_unit he b

/-- The metadata that the response to a question about a path shows. -/
def shownMetadata (headers : Headers) : Except Failure Metadata := do
  let m ← Metadata.ofHeaders .unknown headers
  let mode ← readMode headers
  return { m with mode }

theorem stat_eq (b : Backend) (path : Text) :
    b.stat path = b.annotated "Backend::stat" path
      (if Path.isRoot path then return { mode := .directory }
      else b.perform (.properties path) [200] >>= fun r =>
        Action.ofExcept (shownMetadata r.headers)) := by
  have hlook (r : Response) :
      (do
        let m ← Action.ofExcept (Metadata.ofHeaders .unknown r.headers)
        let mode ← Action.ofExcept (readMode r.headers)
        return { m with mode } : Action Metadata) = Action.ofExcept (shownMetadata r.headers) := by
    unfold shownMetadata
    rw [← Action.ofExcept_bind]
    congr 1
    funext m
    rw [← Action.ofExcept_bind]
    rfl
  unfold stat
  simp only [hlook]

theorem stat_conducted {path : Text} (he : asks (.inspect path)) :
    Conducted b flag asks (b.stat path) := by
  rw [stat_eq]
  unfold annotated
  split
  · exact conducted_pure _
  · exact Errand.conducted he b _ fun r => (Metadata.ofHeaders_noRefusal _ _).bind fun m =>
      (readMode_noRefusal _).bind fun mode => noRefusal_ok _

theorem read_conducted {path : Text} {range : Option ByteRange} (he : asks (.read path range)) :
    Conducted b flag asks (b.read path range) :=
  Errand.conducted_run he b

theorem delete_conducted {path : Text} (he : asks (.delete path)) :
    Conducted b flag asks (b.delete path) :=
  Errand.conducted_unit he b

theorem rename_conducted {source target : Text} (hparent : asks (.makeParent source target))
    (hmove : asks (.move source target)) : Conducted b flag asks (b.rename source target) := by
  have hensured : Conducted b flag asks
      (Action.mapFault ((Errand.makeParent source target).mark b) (b.ensureParent target)) := by
    unfold ensureParent
    dsimp only
    split
    · exact Errand.conducted_unit hparent b
    · exact conducted_pure ()
  unfold rename annotated
  rw [Action.mapFault_mapFault, Action.mapFault_bind]
  exact hensured.bind fun _ => Errand.conducted_unit hmove b

theorem page_conducted {path : Text} {token : Option Text} {limit : Option Int}
    (he : asks (.list path token limit)) :
    Conducted b flag asks (Listing.page b path limit token) :=
  planned_room fun room =>
    Errand.conducted he b (Listing.pageOf b.location.root path token room.nesting) fun r =>
      Listing.pageOf_noRefusal _ _ _ _ r

end Backend

namespace Upload

/-- The errands that write the file. -/
def Asks (u : Upload) : Errand → Prop
  | .createFile path options => path = u.path ∧ options = u.options
  | .append path _ _ _ | .flush path _ | .measure path => path = u.path
  | _ => False

theorem create_conducted (u : Upload) : Conducted u.backend flag u.Asks u.create := by
  have he : u.Asks (.createFile u.path u.options) := ⟨rfl, rfl⟩
  exact Errand.conducted_unit he u.backend

theorem append_conducted (u : Upload) (position : Int) (data : Bytes) (commit : Bool) :
    Conducted u.backend flag u.Asks (u.append position data commit) := by
  have he : u.Asks (.append u.path position data commit) := rfl
  exact Errand.conducted_unit he u.backend

theorem flush_conducted (u : Upload) (position : Int) :
    Conducted u.backend flag u.Asks (u.flush position) := by
  have he : u.Asks (.flush u.path position) := rfl
  exact Errand.conducted_unit he u.backend

theorem storedSize_conducted (u : Upload) : Conducted u.backend flag u.Asks u.storedSize := by
  have hsize (r : Response) : NoRefusal (sizeIn r) := by
    unfold sizeIn
    split
    · exact noRefusal_ok 0
    · exact (readContentLength_noRefusal _).map _
  have he : u.Asks (.measure u.path) := rfl
  rw [u.storedSize_eq]
  exact Errand.conducted he u.backend sizeIn hsize

theorem closedFailure_told (u : Upload) : u.closedFailure.Told u.backend u.Asks := by
  refine ⟨?_, fun f hf => ⟨.measure u.path, rfl, ?_⟩⟩
  · simp [closedFailure]
  · cases hf
    exact Subject.mark_tells { path := u.path } u.backend "Writer::write" _

end Upload

namespace Writer

def upload : Writer → Upload
  | oneShot t => t.upload
  | append t => t.upload

theorem upload_ofOptions (b : Backend) (path : Text) (options : Option WriteOptions)
    (flag : Option Text) (bufferSize : Option Int) :
    (ofOptions b path options flag bufferSize).upload = ⟨b, options.getD {}, path⟩ := by
  unfold ofOptions
  dsimp only
  split <;> rfl

theorem flag_ofOptions (b : Backend) (path : Text) (options : Option WriteOptions)
    (flag : Option Text) (bufferSize : Option Int) :
    (ofOptions b path options flag bufferSize).flag = flag := by
  unfold ofOptions
  dsimp only
  split <;> rfl

/-- What no step of a writer changes. -/
structure Stays (t t' : Writer) : Prop where
  upload_eq : t'.upload = t.upload
  flag_eq : t'.flag = t.flag

end Writer

theorem OneShotWriter.write_planned (t : OneShotWriter) (data : Bytes) :
    Planned t.upload.backend t.flag t.upload.Asks (fun t' => (Writer.oneShot t).Stays (.oneShot t'))
      (t.write data) := by
  unfold OneShotWriter.write
  exact planned_ite (fun _ => planned_error ⟨rfl, rfl⟩ t.upload.closedFailure_told)
    fun _ => planned_ok () ⟨rfl, rfl⟩

theorem OneShotWriter.close_planned (t : OneShotWriter) :
    Planned t.upload.backend t.flag t.upload.Asks (fun t' => (Writer.oneShot t).Stays (.oneShot t'))
      t.close := by
  unfold OneShotWriter.close
  refine planned_ite (fun _ => planned_ok () ⟨rfl, rfl⟩) fun _ => ?_
  dsimp only
  refine t.upload.create_conducted.step ?_ (fun _ w v hw => by rw [hw]) fun _ =>
    ⟨_, ?_, fun w v hw => by rw [hw]⟩
  · exact ⟨rfl, rfl⟩
  · refine (t.upload.append_conducted 0 _ true).step ?_ (fun _ w v hw => by dsimp only; rw [hw])
      fun _ => ⟨_, planned_ok () ?_, fun w v hw => by dsimp only; rw [hw]⟩
    · exact ⟨rfl, rfl⟩
    · exact ⟨rfl, rfl⟩

namespace AppendWriter

theorem start_planned (t : AppendWriter) :
    Planned t.upload.backend flag t.upload.Asks (fun t' => ∃ o, t' = { t with offset := o })
      t.start := by
  unfold start
  dsimp only
  refine t.upload.storedSize_conducted.step ?_ (fun _ w v hw => by rw [hw]) fun n =>
    ⟨_, ?_, fun w v hw => by rw [hw]⟩
  · exact ⟨t.offset, rfl⟩
  · refine planned_ite (fun _ => ?_) fun _ => planned_ok () ⟨some n, rfl⟩
    refine t.upload.create_conducted.step ?_ (fun _ w v hw => by rw [hw]) fun _ =>
      ⟨_, planned_ok () ?_, fun w v hw => by rw [hw]⟩
    · exact ⟨some n, rfl⟩
    · exact ⟨some n, rfl⟩

theorem ensureStarted_planned (t : AppendWriter) :
    Planned t.upload.backend flag t.upload.Asks (fun t' => ∃ o, t' = { t with offset := o })
      t.ensureStarted := by
  unfold ensureStarted
  split
  · exact planned_ok () ⟨t.offset, rfl⟩
  · exact t.start_planned

theorem write_planned (t : AppendWriter) (data : Bytes) :
    Planned t.upload.backend t.flag t.upload.Asks (fun t' => (Writer.append t).Stays (.append t'))
      (t.write data) := by
  unfold write
  dsimp only
  refine planned_ite (fun _ => planned_error ⟨rfl, rfl⟩ t.upload.closedFailure_told) fun _ => ?_
  refine t.ensureStarted_planned.bind (g := id) ?_ (fun _ _ w v hw => by rw [hw]; rfl) ?_
  · rintro _ ⟨o, rfl⟩
    exact ⟨rfl, rfl⟩
  · rintro _ _ ⟨o, rfl⟩
    refine ⟨_, ?_, fun w v hw => by rw [hw]⟩
    refine planned_ite (fun _ => planned_ok () ⟨rfl, rfl⟩) fun _ => ?_
    refine planned_halt rfl (planned_error ⟨rfl, rfl⟩ (Failure.told_of_plain (by simp))) ?_
    refine (t.upload.append_conducted _ data false).step ?_ (fun _ w v hw => by rw [hw]) fun _ =>
      ⟨_, planned_ok () ?_, fun w v hw => by rw [hw]⟩
    · exact ⟨rfl, rfl⟩
    · exact ⟨rfl, rfl⟩

theorem close_planned (t : AppendWriter) :
    Planned t.upload.backend t.flag t.upload.Asks (fun t' => (Writer.append t).Stays (.append t'))
      t.close := by
  unfold close
  refine planned_ite (fun _ => planned_ok () ⟨rfl, rfl⟩) fun _ => ?_
  refine (ensureStarted_planned { t with closed := true }).bind (g := id) ?_
    (fun _ _ w v hw => by rw [hw]; rfl) ?_
  · rintro _ ⟨o, rfl⟩
    exact ⟨rfl, rfl⟩
  · rintro _ _ ⟨o, rfl⟩
    refine ⟨_, ?_, fun w v hw => by rw [hw]⟩
    dsimp only
    refine (t.upload.flush_conducted _).step ?_ (fun _ w v hw => by rw [hw]) fun _ =>
      ⟨_, planned_ok () ?_, fun w v hw => by rw [hw]⟩
    · exact ⟨rfl, rfl⟩
    · exact ⟨rfl, rfl⟩

end AppendWriter

theorem Source.chunks_plain {source : Source} {size : Option Int} {halt : HaltMoment}
    {memory : Int} {e : Failure} (h : (source.chunks size halt memory).2 = some e) (f : Fault) :
    e ≠ .fault f := by
  have hread (size : Int) (limit : Nat → Option Nat) (fuel taken : Nat) (found : List Bytes)
      (rest : Bytes) (h : (readAll halt size limit fuel taken found rest).2 = some e) :
      e ≠ .fault f := by
    induction fuel generalizing taken found rest with
    | zero => cases h
    | succ fuel ih =>
        unfold readAll at h
        split at h
        · cases h
          simp
        · split at h
          · cases h
            simp
          · dsimp only at h
            split at h
            · cases h
            · exact ih _ _ _ h
  unfold chunks at h
  dsimp only at h
  split at h
  · cases h
  · split at h
    · next refusal hrefusal =>
      cases h
      unfold fileRefusal? at hrefusal
      split
      · simp
      · split at hrefusal
        · cases hrefusal
          simp
        · split at hrefusal
          · cases hrefusal
            simp
          · split at hrefusal
            · cases hrefusal
              simp
            · cases hrefusal
    · exact hread _ _ _ _ _ _ h
  · cases h
    simp
  · exact hread _ _ _ _ _ _ h
  · split at h
    · cases h
      simp
    · cases h
  · cases h
    simp

namespace Writer

theorem Stays.refl (t : Writer) : t.Stays t :=
  ⟨rfl, rfl⟩

theorem Stays.trans {t t' t'' : Writer} (h : t.Stays t') (h' : t'.Stays t'') : t.Stays t'' :=
  ⟨h'.upload_eq.trans h.upload_eq, h'.flag_eq.trans h.flag_eq⟩

/-- A step that never leaves the writer's file and flag. -/
abbrev Plans (t : Writer) (x : WriterStep Writer) : Prop :=
  Planned t.upload.backend t.flag t.upload.Asks t.Stays x

theorem Stays.plans {t t' : Writer} (h : t.Stays t') {x : WriterStep Writer} (hx : t'.Plans x) :
    t.Plans x := by
  unfold Plans at hx
  rw [h.upload_eq, h.flag_eq] at hx
  exact hx.mono fun _ h' => h.trans h'

theorem write_plans (t : Writer) (data : Bytes) : t.Plans (t.write data) := by
  cases t with
  | oneShot t =>
      refine (t.write_planned data).map id oneShot (fun _ h => h) fun w r t' v hw => ?_
      simp [write, hw, Except.map_id]
  | append t =>
      refine (t.write_planned data).map id append (fun _ h => h) fun w r t' v hw => ?_
      simp [write, hw, Except.map_id]

theorem close_plans (t : Writer) : t.Plans t.close := by
  cases t with
  | oneShot t =>
      refine t.close_planned.map id oneShot (fun _ h => h) fun w r t' v hw => ?_
      simp [close, hw, Except.map_id]
  | append t =>
      refine t.close_planned.map id append (fun _ h => h) fun w r t' v hw => ?_
      simp [close, hw, Except.map_id]

theorem raiseFlag_of_not (t : Writer) (w : World) : t.raiseFlag false w = w := by
  unfold raiseFlag
  split <;> rfl

theorem raiseFlag_of_raised {t : Writer} {w : World} (h : w.isRaised t.flag = true) (up : Bool) :
    t.raiseFlag up w = w := by
  unfold raiseFlag
  split
  · next flag hflag =>
    rw [hflag] at h
    have hraised : w.raised.contains flag = true := h
    cases up with
    | false => rfl
    | true => simp only [World.raise, hraised, if_true]
  · rfl

/-- With the flag up already it does not matter when it is to go up. -/
theorem writeAll_of_raised {t : Writer} {w : World} (h : w.isRaised t.flag = true)
    (halt : HaltMoment) (taken : Nat) (pieces : List Bytes) :
    t.writeAll halt taken pieces w = t.writeAll none taken pieces w := by
  induction pieces generalizing t taken w with
  | nil => rfl
  | cons data rest ih =>
      unfold writeAll
      rw [raiseFlag_of_raised h, raiseFlag_of_raised h]
      obtain ⟨xs, hpassage⟩ := (t.write_plans data).passage w
      have hstays := (t.write_plans data).keeps_left w
      rcases hw : t.write data w with ⟨e | _, t', v⟩
      · rfl
      · rw [hw] at hpassage hstays
        refine ih ?_ (taken + 1)
        rw [hstays.flag_eq, hpassage.isRaised_eq, h]

theorem writeAll_plans (t : Writer) (taken : Nat) (pieces : List Bytes) :
    t.Plans (t.writeAll none taken pieces) := by
  induction pieces generalizing t taken with
  | nil => exact planned_ok () (.refl t)
  | cons data rest ih =>
      have hnever (w : World) : t.raiseFlag (HaltMoment.isUp none (taken + 1)) w = w :=
        t.raiseFlag_of_not w
      refine (t.write_plans data).bind (g := id) (fun _ h => h) (fun _ _ w v hw => ?_)
        fun _ t' ht => ⟨_, ht.plans (ih t' (taken + 1)), fun w v hw => ?_⟩
      · rw [writeAll, hnever, hw]
        rfl
      · rw [writeAll, hnever, hw]

/-- Writes the chunks that a source gave, and then fails as it did. -/
def writeGiven (t : Writer) (run : ChunkRun) : WriterStep Writer := fun w =>
  match t.writeAll none 0 run.1 w with
  | (.error e, t, w) => (.error e, t, w)
  | (.ok _, t, w) => (run.2.elim (.ok ()) .error, t, w)

/-- Where the moment at which the flag goes up makes no difference to writing pieces, it makes
none to writing from a source. -/
theorem writeGiven_eq {t : Writer} {halt : HaltMoment} {w : World} (run : ChunkRun)
    (hall : ∀ pieces, t.writeAll halt 0 pieces w = t.writeAll none 0 pieces w) :
    (match run with
      | (given, ending) =>
        match t.writeAll halt 0 given w with
        | (.error e, t, w) => (.error e, t, w)
        | (.ok _, t, w) =>
            match ending with
            | some e => (.error e, t, w)
            | none => (.ok (), t, w)) = t.writeGiven run w := by
  obtain ⟨given, ending⟩ := run
  unfold writeGiven
  dsimp only
  rw [hall]
  rcases t.writeAll none 0 given w with ⟨e | _, t', v⟩
  · rfl
  · cases ending <;> rfl

theorem writeFrom_eq (t : Writer) (source : Source) (w : World) :
    t.writeFrom source w =
      if w.isRaised t.flag then t.writeGiven (source.chunks t.bufferSize (some 0) w.room.memory) w
      else t.writeGiven (source.chunks t.bufferSize none w.room.memory) w := by
  unfold writeFrom writeFromWith haltMoment
  dsimp only
  by_cases hup : w.isRaised t.flag = true
  · rw [if_pos hup, if_pos hup, raiseFlag_of_raised hup]
    exact writeGiven_eq _ fun pieces => writeAll_of_raised hup _ 0 pieces
  · have hnever : (t.flag.bind fun _ => none : HaltMoment) = none := by
      cases t.flag <;> rfl
    rw [if_neg hup, if_neg hup, hnever]
    have hraised : t.raiseFlag (HaltMoment.isUp none 0) w = w := t.raiseFlag_of_not w
    rw [hraised]
    exact writeGiven_eq _ fun _ => rfl

theorem writeFrom_plans (t : Writer) (source : Source) : t.Plans (t.writeFrom source) := by
  have hgiven (halt : HaltMoment) (room : Room) :
      t.Plans (t.writeGiven (source.chunks t.bufferSize halt room.memory)) := by
    refine (t.writeAll_plans 0 (source.chunks t.bufferSize halt room.memory).1).bind (g := id)
      (fun _ h => h) (fun _ _ w v hw => ?_) fun _ t' ht =>
        ⟨_, planned_done (r := (source.chunks t.bufferSize halt room.memory).2.elim (.ok ()) .error)
          ht fun e he => ?_, fun w v hw => ?_⟩
    · simp only [writeGiven, hw]
      rfl
    · cases hending : (source.chunks t.bufferSize halt room.memory).2 with
      | none =>
          rw [hending] at he
          cases he
      | some failure =>
          rw [hending] at he
          cases he
          exact Failure.told_of_plain fun f => Source.chunks_plain hending f
    · simp only [writeGiven, hw]
  have hwhole := planned_room fun room => planned_halt rfl (hgiven (some 0) room) (hgiven none room)
  rwa [← funext (t.writeFrom_eq source)] at hwhole

end Writer

namespace PageLister

/-- The errands that ask for a page. -/
def Asks (l : PageLister) (e : Errand) : Prop :=
  ∃ token, e = .list l.path token l.limit

/-- What no step of a lister changes. -/
structure Stays (l l' : PageLister) : Prop where
  backend_eq : l'.backend = l.backend
  path_eq : l'.path = l.path
  limit_eq : l'.limit = l.limit
  flag_eq : l'.flag = l.flag

theorem Stays.refl (l : PageLister) : l.Stays l :=
  ⟨rfl, rfl, rfl, rfl⟩

theorem Stays.trans {l l' l'' : PageLister} (h : l.Stays l') (h' : l'.Stays l'') : l.Stays l'' :=
  ⟨h'.backend_eq.trans h.backend_eq, h'.path_eq.trans h.path_eq, h'.limit_eq.trans h.limit_eq,
    h'.flag_eq.trans h.flag_eq⟩

/-- A step that keeps to the lister's backend, path, limit and flag. -/
abbrev Plans {α : Type} (l : PageLister)
    (x : World → Except Failure α × PageLister × World) : Prop :=
  Planned l.backend l.flag l.Asks l.Stays x

theorem Stays.plans {α : Type} {l l' : PageLister} (h : l.Stays l')
    {x : World → Except Failure α × PageLister × World} (hx : l'.Plans x) : l.Plans x := by
  have hasks : l'.Asks = l.Asks := by
    unfold Asks
    rw [h.path_eq, h.limit_eq]
  unfold Plans at hx
  rw [h.backend_eq, h.flag_eq, hasks] at hx
  exact hx.mono fun _ h' => h.trans h'

theorem nextPage_plans (l : PageLister) : l.Plans l.nextPage := by
  have hturned (page : ListPage) : l.Stays (l.turned page.continuation) := by
    unfold turned
    split <;> exact ⟨rfl, rfl, rfl, rfl⟩
  have hpage : Conducted l.backend l.flag l.Asks (Listing.page l.backend l.path l.limit l.token) :=
    Backend.page_conducted ⟨l.token, rfl⟩
  unfold nextPage
  refine planned_ite (fun _ => planned_ok _ (.refl l)) fun _ => ?_
  refine planned_halt rfl (planned_error (.refl l) (Failure.told_of_plain (by simp))) ?_
  refine hpage.step (.refl l) (fun _ w v hw => by rw [hw]) fun page =>
    ⟨_, planned_ok page (hturned page), fun w v hw => ?_⟩
  rw [hw]
  unfold turned
  dsimp only
  cases page.continuation <;> rfl

theorem takePages_plans (l : PageLister) (count : Nat) (found : List ListPage) :
    l.Plans (takePages count found l) := by
  induction count generalizing found l with
  | zero => exact planned_ok _ (.refl l)
  | succ count ih =>
      change l.Plans fun w => takePages (count + 1) found l w
      unfold takePages
      refine planned_ite (fun _ => planned_ok _ (.refl l)) fun _ => ?_
      exact l.nextPage_plans.bind (g := id) (fun _ h => h) (fun _ _ w v hw => by rw [hw]; rfl)
        fun page l' hl => ⟨_, hl.plans (ih l' (page :: found)), fun w v hw => by rw [hw]⟩

theorem takeEntries_plans (l : PageLister) (need : Option Nat) (fuel : Nat) (found : List Entry) :
    l.Plans (takeEntries need fuel found l) := by
  induction fuel generalizing need found l with
  | zero => exact planned_ok _ (.refl l)
  | succ fuel ih =>
      change l.Plans fun w => takeEntries need (fuel + 1) found l w
      unfold takeEntries
      refine planned_ite (fun _ => planned_ok _ (.refl l)) fun _ => ?_
      exact l.nextPage_plans.bind (g := id) (fun _ h => h) (fun _ _ w v hw => by rw [hw]; rfl)
        fun page l' hl => ⟨_, hl.plans (ih l' _ _), fun w v hw => by rw [hw]⟩

/-- A page that comes takes an answer of the service. -/
theorem pageBound_nextPage {l l' : PageLister} {w v : World} {page : ListPage}
    (hopen : l.done = false) (hpage : l.nextPage w = (.ok page, l', v)) :
    pageBound w = pageBound v + 1 := by
  let s : Listing.State := ⟨l, w⟩
  have hpage' : s.page = .ok page := by simp only [Listing.State.page, s, hpage]
  have hlength := Listing.length_answers_next hopen hpage'
  simp only [Listing.State.next, s, hpage] at hlength
  simp only [pageBound, hlength]

/-- More pages than the service has answers for are never taken. -/
theorem takePages_congr (k k' : Nat) (found : List ListPage) (l : PageLister) (w : World)
    (hk : pageBound w ≤ k) (hk' : pageBound w ≤ k') :
    takePages k found l w = takePages k' found l w := by
  induction k generalizing k' found l w with
  | zero => cases hk
  | succ k ih =>
      obtain ⟨k', rfl⟩ : ∃ n, k' = n + 1 := ⟨k' - 1, by unfold pageBound at hk'; omega⟩
      unfold takePages
      cases hdone : l.done with
      | true => rfl
      | false =>
          rcases hpage : l.nextPage w with ⟨e | page, l', v⟩
          · rfl
          · have hbound := pageBound_nextPage hdone hpage
            exact ih k' _ l' v (by omega) (by omega)

theorem takeEntries_congr (need : Option Nat) (k k' : Nat) (found : List Entry) (l : PageLister)
    (w : World) (hk : pageBound w ≤ k) (hk' : pageBound w ≤ k') :
    takeEntries need k found l w = takeEntries need k' found l w := by
  induction k generalizing need k' found l w with
  | zero => cases hk
  | succ k ih =>
      obtain ⟨k', rfl⟩ : ∃ n, k' = n + 1 := ⟨k' - 1, by unfold pageBound at hk'; omega⟩
      unfold takeEntries
      split
      · rfl
      · next hmore =>
        have hdone : l.done = false := by
          cases hl : l.done <;> simp_all
        rcases hpage : l.nextPage w with ⟨e | page, l', v⟩
        · rfl
        · have hbound := pageBound_nextPage hdone hpage
          exact ih _ k' _ l' v (by omega) (by omega)

end PageLister

end

end DataLake
