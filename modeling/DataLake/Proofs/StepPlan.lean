import DataLake.Proofs.ObjectPlan
import DataLake.Proofs.ReadRun
import DataLake.Session

/-!
The plans of a session's steps. A step depends on the world and on the object of its name,
and on nothing else of the session. One that goes on as long as the service has answers has
a plan for every bound on their number.
-/

namespace DataLake

namespace ReadStream

/-- A failure of reading is no fault, and the stream keeps its flag. -/
structure Reads {α : Type} (s : ReadStream) (r : Except Failure α) (s' : ReadStream) : Prop where
  plain : ∀ f, r ≠ .error (.fault f)
  flag_eq : s'.flag = s.flag

theorem pull_reads (halted : Bool) (feed : Feed) (s : ReadStream) :
    s.Reads (pull halted feed s).1 (pull halted feed s).2.2 := by
  have hblock (size : Int) :
      s.Reads (pullBlock halted size s).1 (pullBlock halted size s).2.2 := by
    unfold pullBlock
    split
    · exact ⟨by simp, rfl⟩
    · split
      · exact ⟨by simp, rfl⟩
      · dsimp only
        split
        · exact ⟨by simp, rfl⟩
        · split <;> exact ⟨by simp, rfl⟩
  have hopen (size : Int) : s.Reads (openBody halted size s).1 (openBody halted size s).2.2 := by
    unfold openBody
    split
    · exact ⟨by simp, rfl⟩
    · exact hblock size
  unfold pull
  split
  · split
    · exact hopen _
    · exact ⟨by simp, rfl⟩
  · exact hopen _
  · exact hblock _
  · exact ⟨by simp, rfl⟩

theorem gather_reads (halted : Bool) (need : Option Nat) (fuel : Nat) (found : List Bytes)
    (feed : Feed) (s : ReadStream) :
    s.Reads (gather halted need fuel found feed s).1 (gather halted need fuel found feed s).2.2 := by
  induction fuel generalizing need found feed s with
  | zero => exact ⟨by simp [gather], rfl⟩
  | succ fuel ih =>
      unfold gather
      split
      · exact ⟨by simp, rfl⟩
      · have hpull := s.pull_reads halted feed
        rcases hp : pull halted feed s with ⟨e | chunk, feed', s'⟩
        · rw [hp] at hpull
          exact ⟨fun f hf => hpull.plain f (by cases hf; rfl), hpull.flag_eq⟩
        · rw [hp] at hpull
          cases chunk with
          | none => exact ⟨by simp, hpull.flag_eq⟩
          | some chunk =>
              have hrest := ih (need.map (· - chunk.length)) (chunk :: found) feed' s'
              exact ⟨hrest.plain, hrest.flag_eq.trans hpull.flag_eq⟩

theorem takeChunks_reads (halted : Bool) (count : Nat) (found : List Bytes) (feed : Feed)
    (s : ReadStream) :
    s.Reads (takeChunks halted count found feed s).1 (takeChunks halted count found feed s).2 := by
  induction count generalizing found feed s with
  | zero => exact ⟨by simp [takeChunks], rfl⟩
  | succ count ih =>
      unfold takeChunks
      have hpull := s.pull_reads halted feed
      rcases hp : pull halted feed s with ⟨e | chunk, feed', s'⟩
      · rw [hp] at hpull
        exact ⟨fun f hf => hpull.plain f (by cases hf; rfl), hpull.flag_eq⟩
      · rw [hp] at hpull
        cases chunk with
        | none => exact ⟨by simp, hpull.flag_eq⟩
        | some chunk =>
            have hrest := ih (chunk :: found) feed' s'
            exact ⟨hrest.plain, hrest.flag_eq.trans hpull.flag_eq⟩

theorem flag_close (s : ReadStream) : s.close.flag = s.flag := by
  unfold close
  split <;> rfl

theorem read_reads (halted : Bool) (size : Option Int) (s : ReadStream) :
    s.Reads (s.read halted size).1 (s.read halted size).2 := by
  have hgather := gather_reads halted ((wanted size).map fun n => n - (s.waiting.take n).length)
    (pullBound { s with waiting := [] } ((wanted size).map fun n => n - (s.waiting.take n).length)) []
    (s.feed.getD (.fresh none)) { s with waiting := [] }
  rw [read_eq]
  generalize (wanted size).map _ = need at hgather
  rcases hg : gather halted need (pullBound { s with waiting := [] } need) []
    (s.feed.getD (.fresh none)) { s with waiting := [] } with ⟨e | chunks, feed, s'⟩
  · rw [hg] at hgather
    exact ⟨fun f hf => hgather.plain f (by cases hf; rfl), hgather.flag_eq⟩
  · rw [hg] at hgather
    have hflag : s'.flag = s.flag := hgather.flag_eq
    dsimp only
    cases wanted size with
    | none => exact ⟨by simp, (flag_close _).trans hflag⟩
    | some n => exact ⟨by simp, hflag⟩

end ReadStream

theorem StreamStep.run_reads (step : StreamStep) (halted : Bool) (s : ReadStream) :
    s.Reads (step.run halted s).1 (step.run halted s).2 := by
  have hmap {α β : Type} {r : Except Failure α} {s' : ReadStream} (f : α → β)
      (h : s.Reads r s') : s.Reads (r.map f) s' := by
    refine ⟨fun fault hfault => ?_, h.flag_eq⟩
    cases r with
    | ok a => cases hfault
    | error e =>
        cases hfault
        exact h.plain fault rfl
  cases step with
  | read size => exact hmap _ (s.read_reads halted size)
  | chunks size count => exact hmap _ (s.takeChunks_reads halted _ [] (.fresh size))
  | status | header name => exact ⟨by simp [run], rfl⟩
  | close => exact ⟨by simp [run], s.flag_close⟩

/-- Within so many answers of the service the step has a plan that heeds its errands. -/
def PlannedWithin {α σ : Type} (n : Nat) (b : Backend) (flag : Option Text) (asks : Errand → Prop)
    (keeps : σ → Prop) (x : World → Except Failure α × σ × World) : Prop :=
  ∃ x', Planned b flag asks keeps x' ∧ ∀ w, w.answers.length ≤ n → x w = x' w

theorem Planned.within {α σ : Type} {b : Backend} {flag : Option Text} {asks : Errand → Prop}
    {keeps : σ → Prop} {x : World → Except Failure α × σ × World} (h : Planned b flag asks keeps x) (n : Nat) :
    PlannedWithin n b flag asks keeps x :=
  ⟨x, h, fun _ _ => rfl⟩

namespace Handle

variable {b : Backend} {asks : Errand → Prop}

/-- An object that sends its requests through the backend, if it sends any. -/
def On (b : Backend) : Handle → Prop
  | stream _ => True
  | lister l => l.backend = b
  | writer t => t.upload.backend = b

def flag : Handle → Option Text
  | stream s => s.flag
  | lister l => l.flag
  | writer t => t.flag

/-- The errands that the object may run. -/
def Asks : Handle → Errand → Prop
  | stream _ => fun _ => False
  | lister l => l.Asks
  | writer t => t.upload.Asks

/-- What no step of an object changes. -/
structure Stays (h h' : Handle) : Prop where
  on : ∀ b, h.On b → h'.On b
  flag_eq : h'.flag = h.flag
  asks_eq : h'.Asks = h.Asks

theorem Stays.refl (h : Handle) : h.Stays h :=
  ⟨fun _ hon => hon, rfl, rfl⟩

theorem runStream_planned (step : StreamStep) (s : ReadStream) :
    Planned b s.flag asks (stream s).Stays (runStream step s) := by
  refine planned_look (f := fun up w => ((step.run up s).1, stream (step.run up s).2, w))
    fun up => planned_done ?_ fun e he => Failure.told_of_plain fun f hf => ?_
  · exact ⟨fun _ _ => trivial, (step.run_reads up s).flag_eq, rfl⟩
  · exact (step.run_reads up s).plain f (by rw [he, hf])

theorem runWriter_planned (step : WriterAct) (t : Writer) :
    Planned t.upload.backend t.flag t.upload.Asks (writer t).Stays (runWriter step t) := by
  have hstays {t' : Writer} (h : t.Stays t') : (writer t).Stays (writer t') := by
    refine ⟨fun b hon => ?_, h.flag_eq, ?_⟩
    · exact (congrArg Upload.backend h.upload_eq).trans hon
    · exact congrArg Upload.Asks h.upload_eq
  have hact {x : WriterStep Writer} (hx : t.Plans x)
      (hrun : ∀ w r t' v, x w = (r, t', v) →
        runWriter step t w = (r.map fun _ => .nothing, writer t', v)) :
      Planned t.upload.backend t.flag t.upload.Asks (writer t).Stays (runWriter step t) :=
    hx.map (fun _ => .nothing) writer (fun _ h => hstays h) hrun
  cases step with
  | write data =>
      exact hact (t.write_plans data) fun w r t' v hw => by simp only [runWriter, WriterAct.run, hw]
  | writeFrom source =>
      exact hact (t.writeFrom_plans source) fun w r t' v hw => by
        simp only [runWriter, WriterAct.run, hw]
  | close => exact hact t.close_plans fun w r t' v hw => by simp only [runWriter, WriterAct.run, hw]
  | abort =>
      refine planned_ok _ (hstays ?_)
      cases t <;> exact ⟨rfl, rfl⟩
  | path => exact planned_ok _ (.refl _)

theorem runLister_planned (step : ListerStep) (l : PageLister) (n : Nat) :
    PlannedWithin n l.backend l.flag l.Asks (lister l).Stays (runLister step l) := by
  have hstays {l' : PageLister} (h : l.Stays l') : (lister l).Stays (lister l') := by
    refine ⟨fun b hon => h.backend_eq.trans hon, h.flag_eq, ?_⟩
    change l'.Asks = l.Asks
    unfold PageLister.Asks
    rw [h.path_eq, h.limit_eq]
  have hact {α : Type} {x : World → Except Failure α × PageLister × World} (hx : l.Plans x)
      (f : α → Outcome) : Planned l.backend l.flag l.Asks (lister l).Stays
        fun w => ((x w).1.map f, lister (x w).2.1, (x w).2.2) :=
    hx.map f lister (fun _ h => hstays h) fun w r l' v hw => by simp only [hw]
  cases step with
  | nextPage => exact ⟨_, hact l.nextPage_plans .page, fun _ _ => rfl⟩
  | entries count =>
      refine ⟨_, hact (l.takeEntries_plans count (n + 1) []) .entries, fun w hw => ?_⟩
      simp only [runLister, ListerStep.run, PageLister.entries]
      rw [PageLister.takeEntries_congr count (PageLister.pageBound w) (n + 1) [] l w
        (Nat.le_refl _) (Nat.succ_le_succ hw)]
  | pages count =>
      refine ⟨_, hact (l.takePages_plans (count.elim (n + 1) (min · (n + 1))) []) .pages,
        fun w hw => ?_⟩
      have hbound : PageLister.pageBound w ≤ n + 1 := Nat.succ_le_succ hw
      have hsame : PageLister.takePages
          (count.elim (PageLister.pageBound w) (min · (PageLister.pageBound w))) [] l w =
          PageLister.takePages (count.elim (n + 1) (min · (n + 1))) [] l w := by
        cases count with
        | none => exact PageLister.takePages_congr _ _ [] l w (Nat.le_refl _) hbound
        | some k =>
            dsimp only [Option.elim_some]
            by_cases hk : k ≤ PageLister.pageBound w
            · rw [Nat.min_eq_left hk, Nat.min_eq_left (hk.trans hbound)]
            · exact PageLister.takePages_congr _ _ [] l w (by omega) (by omega)
      simp only [runLister, ListerStep.run, PageLister.pages, hsame]

theorem run_planned {h : Handle} (hon : h.On b) (step : HandleStep) (n : Nat) :
    PlannedWithin n b h.flag h.Asks h.Stays (h.run step) := by
  have hleft (e : Failure) (he : ∀ f, e ≠ .fault f) :
      Planned b h.flag h.Asks h.Stays fun w => ((.error e : Except Failure Outcome), h, w) :=
    planned_error (.refl h) (Failure.told_of_plain he)
  cases h with
  | stream s =>
      cases step with
      | stream step => exact (runStream_planned step s).within n
      | iterate count => exact (runStream_planned (.chunks none count) s).within n
      | close | leave => exact (runStream_planned .close s).within n
      | writer | lister => exact (hleft .wrongShape (by simp)).within n
  | writer t =>
      cases hon
      cases step with
      | writer step => exact (runWriter_planned step t).within n
      | close => exact (runWriter_planned .close t).within n
      | leave failed => exact (runWriter_planned (if failed then .abort else .close) t).within n
      | iterate => exact (hleft .wrongKind (by simp)).within n
      | stream | lister => exact (hleft .wrongShape (by simp)).within n
  | lister l =>
      cases hon
      cases step with
      | lister step => exact runLister_planned step l n
      | iterate count => exact runLister_planned (.entries count) l n
      | stream | writer | close | leave => exact (hleft .wrongShape (by simp)).within n

end Handle

namespace Step

/-- The name of the object that a step is about or opens. -/
def name? : Step → Option Text
  | openRead name _ _ _ | openList name _ _ _ | openWrite name _ _ _ _ | on name _ => some name
  | _ => none

/-- The flag of that object, when it is the given one before the step. -/
def flag? (step : Step) (h? : Option Handle) : Option Text :=
  match step with
  | openRead _ _ _ flag | openList _ _ _ flag | openWrite _ _ _ flag _ => flag
  | on _ _ => h?.bind Handle.flag
  | _ => none

/-- The errands that the step may run, when the object is the given one. -/
def Asks (step : Step) (h? : Option Handle) (e : Errand) : Prop :=
  match step with
  | createDir path => e = .makeDirectory path
  | stat path => e = .inspect path
  | delete path => e = .delete path
  | rename source target => e = .makeParent source target ∨ e = .move source target
  | openRead _ path range _ => e = .read path range
  | fetchPage path token limit => e = .list path token limit
  | on _ _ => ∃ h, h? = some h ∧ h.Asks e
  | info | openList .. | openWrite .. | raise _ => False

def act {α : Type} (x : Action α) (f : α → Outcome) (w : World) :
    Except Failure Outcome × Option Handle × World :=
  ((x w).1.map f, none, (x w).2)

/-- Carries out a step, given the object of its name before it: what it gives, and the
object that it leaves under the name. -/
def carry (b : Backend) (h? : Option Handle) (step : Step) (w : World) :
    Except Failure Outcome × Option Handle × World :=
  match step with
  | createDir path => act (b.createDir path) (fun _ => .nothing) w
  | stat path => act (b.stat path) .metadata w
  | delete path => act (b.delete path) (fun _ => .nothing) w
  | rename source target => act (b.rename source target) (fun _ => .nothing) w
  | info => (.ok (.info b.info), none, w)
  | openRead _ path range flag =>
      match b.read path range w with
      | (.error e, w) => (.error e, none, w)
      | (.ok r, w) =>
          let h := Handle.stream (.ofResponse r ReadStream.defaultBufferSize flag)
          (.ok (.opened h), some h, w)
  | openList _ path limit flag =>
      let h := Handle.lister { backend := b, path, limit, flag }
      (.ok (.opened h), some h, w)
  | openWrite _ path options flag bufferSize =>
      let h := Handle.writer (.ofOptions b path options flag bufferSize)
      (.ok (.opened h), some h, w)
  | fetchPage path token limit => act (Listing.page b path limit token) .page w
  | raise flag => (.ok .nothing, none, w.raise flag)
  | on _ step =>
      match h? with
      | none => (.error .unknownHandle, none, w)
      | some h =>
          match h.run step w with
          | (r, h, w) => (r, some h, w)

/-- What a step leaves under its name: an object of the backend, with the flag of the
step. Going on with an object leaves it what it is. -/
structure Leaves (b : Backend) (h? : Option Handle) (step : Step) (h : Handle) : Prop where
  on : h.On b
  flag_eq : h.flag = step.flag? h?
  asks_eq : ∀ name act, step = .on name act → ∃ h', h? = some h' ∧ h.Asks = h'.Asks

theorem carry_planned {h? : Option Handle} (hon : ∀ h, h? = some h → h.On b) {step : Step}
    (hraise : ∀ flag, step ≠ .raise flag) (n : Nat) :
    PlannedWithin n b (step.flag? h?) (step.Asks h?)
      (fun left => ∀ h, left = some h → step.Leaves b h? h) (step.carry b h?) := by
  have hact {α : Type} {x : Action α} (f : α → Outcome)
      (hx : Conducted b (step.flag? h?) (step.Asks h?) x) :
      Planned b (step.flag? h?) (step.Asks h?)
        (fun left => ∀ h, left = some h → step.Leaves b h? h) (act x f) := by
    refine hx.step (s := none) (by simp) (fun e w v hw => by simp only [act, hw]; rfl)
      fun a => ⟨_, planned_ok (f a) (s := none) (by simp), fun w v hw => ?_⟩
    simp only [act, hw]
    rfl
  have hopened (h : Handle) (hon : h.On b) (hflag : h.flag = step.flag? h?)
      (hnew : ∀ name act, step ≠ .on name act) :
      ∀ h', some h = some h' → step.Leaves b h? h' := by
    rintro _ ⟨rfl⟩
    exact ⟨hon, hflag, fun name act hstep => absurd hstep (hnew name act)⟩
  cases step with
  | createDir path => exact (hact _ (Backend.createDir_conducted rfl)).within n
  | stat path => exact (hact _ (Backend.stat_conducted rfl)).within n
  | delete path => exact (hact _ (Backend.delete_conducted rfl)).within n
  | rename source target =>
      exact (hact _ (Backend.rename_conducted (.inl rfl) (.inr rfl))).within n
  | info => exact (planned_ok _ (by simp)).within n
  | openRead name path range flag =>
      have hread : Conducted b flag (fun e => e = .read path range) (b.read path range) :=
        Backend.read_conducted rfl
      refine Planned.within (hread.step (s := none) (by simp)
        (fun e w v hw => by simp only [carry, hw]) fun r => ?_) n
      let h := Handle.stream (.ofResponse r ReadStream.defaultBufferSize flag)
      exact ⟨_, planned_ok (.opened h) (hopened h trivial rfl (by simp)), fun w v hw => by
        simp only [carry, hw, h]⟩
  | openList name path limit flag =>
      exact (planned_ok _ (hopened (.lister { backend := b, path, limit, flag }) rfl rfl
        (by simp))).within n
  | openWrite name path options flag bufferSize =>
      let t := Writer.ofOptions b path options flag bufferSize
      have hon : t.upload.backend = b := congrArg Upload.backend (Writer.upload_ofOptions ..)
      have hflag : t.flag = flag := Writer.flag_ofOptions ..
      exact (planned_ok (Outcome.opened (.writer t)) (hopened (.writer t) hon hflag (by simp))).within n
  | fetchPage path token limit => exact (hact _ (Backend.page_conducted rfl)).within n
  | raise flag => exact absurd rfl (hraise flag)
  | on name act =>
      cases h? with
      | none =>
          have htold : Failure.unknownHandle.Told b ((on name act).Asks none) :=
            Failure.told_of_plain (by simp)
          exact (planned_error (s := none) (by simp) htold).within n
      | some h =>
          obtain ⟨x, hx, hrun⟩ := Handle.run_planned (hon h rfl) act n
          have hasks : (on name act).Asks (some h) = h.Asks := by
            funext e
            simp [Step.Asks]
          refine ⟨fun w => ((x w).1, some (x w).2.1, (x w).2.2), ?_, fun w hw => ?_⟩
          · rw [hasks]
            refine hx.map id some ?_ fun w r h' v hw => ?_
            · rintro h' hs _ ⟨rfl⟩
              refine ⟨hs.on b (hon h rfl), hs.flag_eq, fun _ _ _ => ⟨h, rfl, hs.asks_eq⟩⟩
            · simp [hw, Except.map_id]
          · simp only [carry, hrun w hw]

theorem carry_leaves {h? : Option Handle} (hon : ∀ h, h? = some h → h.On b) (step : Step)
    (w : World) : ∀ h, (step.carry b h? w).2.1 = some h → step.Leaves b h? h := by
  by_cases hraise : ∃ flag, step = .raise flag
  · obtain ⟨flag, rfl⟩ := hraise
    intro h hleft
    cases hleft
  · obtain ⟨x, hx, hrun⟩ := carry_planned hon (fun flag hflag => hraise ⟨flag, hflag⟩)
      w.answers.length
    rw [hrun w (Nat.le_refl _)]
    exact hx.keeps_left w

end Step

namespace Session

/-- The session after a step that left an object under a name, or none. -/
def left (s : Session) (name? : Option Text) (left : Option Handle) (w : World) : Session :=
  match name?, left with
  | some name, some h => { s with world := w }.store name h
  | _, _ => { s with world := w }

/-- The object that a step is about. -/
def about (s : Session) (step : Step) : Option Handle :=
  step.name?.bind s.handle?

theorem act_eq {α : Type} (s : Session) (x : Action α) (f : α → Outcome) :
    s.act x f = ({ outcome := (Step.act x f s.world).1 },
      { s with world := (Step.act x f s.world).2.2 }) :=
  rfl

theorem step_eq (s : Session) (step : Step) :
    let out := step.carry s.backend (s.about step) s.world
    s.step step =
      ({ outcome := out.1, glimpse := out.2.1.elim .nothing Handle.glimpse },
        s.left step.name? out.2.1 out.2.2) := by
  cases step with
  | createDir path => exact s.act_eq (s.backend.createDir path) fun _ => .nothing
  | stat path => exact s.act_eq (s.backend.stat path) .metadata
  | delete path => exact s.act_eq (s.backend.delete path) fun _ => .nothing
  | rename source target => exact s.act_eq (s.backend.rename source target) fun _ => .nothing
  | fetchPage path token limit => exact s.act_eq (Listing.page s.backend path limit token) .page
  | info | openList | openWrite | raise => rfl
  | openRead name path range flag =>
      simp only [Session.step, Step.carry]
      rcases s.backend.read path range s.world with ⟨e | r, w⟩ <;> rfl
  | on name act =>
      simp only [Session.step, Step.carry, about, Step.name?, Option.bind_some]
      cases s.handle? name with
      | none => rfl
      | some h =>
          dsimp only
          rcases h.run act s.world with ⟨r, h', w⟩
          rfl

@[simp] theorem backend_left (s : Session) (name? : Option Text) (h? : Option Handle) (w : World) :
    (s.left name? h? w).backend = s.backend := by
  unfold left
  split <;> rfl

@[simp] theorem world_left (s : Session) (name? : Option Text) (h? : Option Handle) (w : World) :
    (s.left name? h? w).world = w := by
  unfold left
  split <;> rfl

/-- A session whose objects all send their requests through its backend. -/
def OneBackend (s : Session) : Prop :=
  ∀ e ∈ s.handles, e.2.On s.backend

theorem OneBackend.about_on {s : Session} (hs : s.OneBackend) (step : Step) :
    ∀ h, s.about step = some h → h.On s.backend := by
  intro h habout
  obtain ⟨name, _, hname⟩ := Option.bind_eq_some_iff.mp habout
  obtain ⟨e, he, rfl⟩ := Option.map_eq_some_iff.mp hname
  exact hs e (List.mem_of_find?_eq_some he)

theorem OneBackend.left {s : Session} (hs : s.OneBackend) (name? : Option Text) {h? : Option Handle}
    (hon : ∀ h, h? = some h → h.On s.backend) (w : World) : (s.left name? h? w).OneBackend := by
  unfold Session.left
  split
  · intro e he
    rcases List.mem_cons.mp he with rfl | he
    · exact hon _ rfl
    · exact hs e (List.mem_filter.mp he).1
  · exact hs

/-- Every step but the raising of a flag goes by a plan that heeds its errands. -/
theorem OneBackend.step_runs {s : Session} (hs : s.OneBackend) (step : Step) :
    (∃ flag, step = .raise flag ∧ (s.step step).2.world = s.world.raise flag) ∨
      ∃ p : Plan Outcome (Option Handle),
        p.Heeds s.backend (step.Asks (s.about step))
            (fun left => ∀ h, left = some h → step.Leaves s.backend (s.about step) h) ∧
          (s.step step).1.outcome = (p.run s.backend (step.flag? (s.about step)) s.world).1 ∧
          (s.step step).2.world = (p.run s.backend (step.flag? (s.about step)) s.world).2.2 := by
  by_cases hraise : ∃ flag, step = .raise flag
  · obtain ⟨flag, rfl⟩ := hraise
    exact .inl ⟨flag, rfl, rfl⟩
  · obtain ⟨x, ⟨p, hp, hplan⟩, hrun⟩ := step.carry_planned (hs.about_on step)
      (fun flag hflag => hraise ⟨flag, hflag⟩) s.world.answers.length
    have hcarry := (hrun s.world (Nat.le_refl _)).trans (hplan s.world)
    refine .inr ⟨p, hp, ?_, ?_⟩
    · rw [step_eq, ← hcarry]
    · rw [step_eq, ← hcarry]
      exact s.world_left _ _ _

theorem OneBackend.step {s : Session} (hs : s.OneBackend) (step : Step) :
    (s.step step).2.OneBackend := by
  rw [step_eq]
  exact hs.left _ (fun h hleft => (step.carry_leaves (hs.about_on step) _ h hleft).on) _

theorem backend_step (s : Session) (step : Step) : (s.step step).2.backend = s.backend := by
  rw [step_eq]
  exact s.backend_left _ _ _

theorem OneBackend.run {s : Session} (hs : s.OneBackend) (steps : List Step) :
    (s.run steps).2.OneBackend ∧ (s.run steps).2.backend = s.backend := by
  induction steps generalizing s with
  | nil => exact ⟨hs, rfl⟩
  | cons step steps ih =>
      obtain ⟨hone, hbackend⟩ := ih (hs.step step)
      exact ⟨hone, hbackend.trans (s.backend_step step)⟩

end Session

end DataLake
