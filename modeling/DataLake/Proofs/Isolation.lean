import DataLake.Proofs.Replay

/-!
Objects of one backend that share no halt flag do not disturb each other. Their steps may
come in any order: with a shared key each object does what it does when its own steps run
alone and its requests are answered as they were.
-/

namespace DataLake

def Step.flags : Step → List Text
  | openRead _ _ _ flag | openList _ _ _ flag | openWrite _ _ _ flag _ => flag.toList
  | raise flag => [flag]
  | createDir _ | stat _ | delete _ | rename .. | info | fetchPage .. | on .. => []

/-- The step belongs to an object with these names and flags. -/
def Step.Uses (names flags : Text → Prop) (step : Step) : Prop :=
  (∀ name ∈ step.name?, names name) ∧ ∀ flag ∈ step.flags, flags flag

/-- The step belongs to another object. -/
def Step.Avoids (names flags : Text → Prop) (step : Step) : Prop :=
  (∀ name ∈ step.name?, ¬ names name) ∧ ∀ flag ∈ step.flags, ¬ flags flag

theorem World.isRaised_raise (w : World) (flag other : Text) :
    (w.raise flag).isRaised (some other) = (decide (other = flag) || w.isRaised (some other)) := by
  unfold raise
  split
  · next hup =>
    by_cases hsame : other = flag
    · rw [hsame]
      exact hup.trans (Bool.or_eq_true_iff.mpr (.inr hup)).symm
    · simp [hsame]
  · simp [isRaised]

@[simp] theorem World.now_raise (w : World) (flag : Text) : (w.raise flag).now = w.now := by
  unfold raise
  split <;> rfl

@[simp] theorem World.room_raise (w : World) (flag : Text) : (w.raise flag).room = w.room := by
  unfold raise
  split <;> rfl

@[simp] theorem World.answers_raise (w : World) (flag : Text) :
    (w.raise flag).answers = w.answers := by
  unfold raise
  split <;> rfl

namespace Session

theorem handle?_store (s : Session) (name other : Text) (h : Handle) :
    (s.store name h).handle? other = if name = other then some h else s.handle? other := by
  unfold store handle?
  rw [List.find?_cons]
  by_cases hsame : name = other
  · simp [hsame]
  · have hother : (name == other) = false := beq_eq_false_iff_ne.mpr hsame
    rw [hother, if_neg hsame, List.find?_filter]
    dsimp only
    congr 2
    funext e
    by_cases he : e.1 = other
    · simp [he, Ne.symm hsame]
    · simp [he]

theorem handle?_left_of_ne (s : Session) {name? : Option Text} {other : Text}
    (h : name? ≠ some other) (left : Option Handle) (w : World) :
    (s.left name? left w).handle? other = s.handle? other := by
  unfold Session.left
  split
  · next name h' =>
    rw [handle?_store, if_neg (fun hsame => h (congrArg some hsame))]
    rfl
  · rfl

theorem handle?_left_self (s : Session) (name : Text) (left : Option Handle) (w : World) :
    (s.left (some name) left w).handle? name = left.or (s.handle? name) := by
  cases left with
  | none => rfl
  | some h => exact (handle?_store _ _ _ _).trans (if_pos rfl)

/-- What one step came to: what the caller sees, the exchanges that were made, and the
object that is under the step's name after it. -/
@[ext] structure Turn where
  result : StepResult
  exchanges : List Exchange
  object : Option Handle

def turn (s : Session) (step : Step) : Turn × Session :=
  match s.step step with
  | (result, s') =>
      ({ result, exchanges := s'.world.exchanges.drop s.world.exchanges.length
         object := s'.about step }, s')

/-- The items that are tagged with one object. -/
def own {ι α : Type} [DecidableEq ι] (i : ι) (items : List (ι × α)) : List (ι × α) :=
  items.filter fun x => x.1 = i

theorem own_cons_self {ι α : Type} [DecidableEq ι] (i : ι) (a : α) (rest : List (ι × α)) :
    own i ((i, a) :: rest) = (i, a) :: own i rest :=
  List.filter_cons_of_pos (decide_eq_true rfl)

theorem own_cons_of_ne {ι α : Type} [DecidableEq ι] {i j : ι} (h : j ≠ i) (a : α)
    (rest : List (ι × α)) : own i ((j, a) :: rest) = own i rest :=
  List.filter_cons_of_neg (by simpa using h)

/-- Carries out steps, each tagged with the object it belongs to. -/
def traced {ι : Type} (s : Session) : List (ι × Step) → List (ι × Turn) × Session
  | [] => ([], s)
  | (i, step) :: rest =>
      match s.turn step with
      | (turn, s) =>
          match s.traced rest with
          | (turns, s) => ((i, turn) :: turns, s)

theorem traced_cons {ι : Type} (s : Session) (i : ι) (step : Step) (rest : List (ι × Step)) :
    s.traced ((i, step) :: rest) =
      ((i, (s.turn step).1) :: ((s.turn step).2.traced rest).1, ((s.turn step).2.traced rest).2) :=
  rfl

/-- The turns are those of the run in which the steps come in this order. -/
theorem traced_run {ι : Type} (s : Session) (steps : List (ι × Step)) :
    s.run (steps.map Prod.snd) =
      ((s.traced steps).1.map fun x => x.2.result, (s.traced steps).2) := by
  induction steps generalizing s with
  | nil => rfl
  | cons x steps ih =>
      obtain ⟨i, step⟩ := x
      rw [traced_cons, List.map_cons]
      unfold run
      dsimp only
      rw [ih]
      rfl

/-- Steps of different objects have neither a name nor a flag in common. -/
def Separate {ι : Type} (steps : List (ι × Step)) : Prop :=
  ∀ x ∈ steps, ∀ y ∈ steps, x.1 ≠ y.1 →
    (∀ name ∈ x.2.name?, name ∉ y.2.name?) ∧ ∀ flag ∈ x.2.flags, flag ∉ y.2.flags

instance {ι : Type} [DecidableEq ι] (steps : List (ι × Step)) : Decidable (Separate steps) :=
  inferInstanceAs (Decidable (∀ x ∈ steps, ∀ y ∈ steps, x.1 ≠ y.1 →
    (∀ name ∈ x.2.name?, name ∉ y.2.name?) ∧ ∀ flag ∈ x.2.flags, flag ∉ y.2.flags))

/-- Two sessions on one backend that agree on the given names and flags. An object with
such a name has such a flag, if it has one. -/
structure Agree (names flags : Text → Prop) (s t : Session) : Prop where
  backend_eq : t.backend = s.backend
  now_eq : t.world.now = s.world.now
  room_eq : t.world.room = s.world.room
  raised_eq : ∀ flag, flags flag → t.world.isRaised (some flag) = s.world.isRaised (some flag)
  handle_eq : ∀ name, names name → t.handle? name = s.handle? name
  flag_own : ∀ name, names name → ∀ h, s.handle? name = some h →
    ∀ flag, h.flag = some flag → flags flag

variable {names flags : Text → Prop} {s t : Session}

theorem Agree.about_eq (h : Agree names flags s t) {step : Step}
    (huses : step.Uses names flags) : t.about step = s.about step := by
  unfold about
  cases hname : step.name? with
  | none => rfl
  | some name => exact h.handle_eq name (huses.1 name hname)

/-- The flag of a step is one of those that its object has or names. -/
theorem Agree.flag_mem (h : Agree names flags s t) {step : Step} {flag : Text}
    (huses : step.Uses names flags) (hflag : step.flag? (s.about step) = some flag) : flags flag := by
  cases step with
  | openRead | openList | openWrite => exact huses.2 flag (Option.mem_toList.mpr hflag)
  | on name act =>
      obtain ⟨object, habout, hobject⟩ := Option.bind_eq_some_iff.mp hflag
      exact h.flag_own name (huses.1 name rfl) object habout flag hobject
  | _ => cases hflag

theorem Agree.isRaised_eq (h : Agree names flags s t) {step : Step}
    (huses : step.Uses names flags) :
    t.world.isRaised (step.flag? (s.about step)) = s.world.isRaised (step.flag? (s.about step)) := by
  cases hflag : step.flag? (s.about step) with
  | none => rfl
  | some flag => exact h.raised_eq flag (h.flag_mem huses hflag)

theorem step_world (hone : s.OneBackend) (step : Step) :
    (∃ flag, step = .raise flag ∧ (s.step step).2.world = s.world.raise flag) ∨
      ∃ xs, s.world.Passage xs (s.step step).2.world := by
  refine (hone.step_runs step).imp_right ?_
  rintro ⟨p, -, -, hworld⟩
  rw [hworld]
  exact p.run_passage s.world

/-- A step of another object. -/
theorem Agree.step_other (h : Agree names flags s t) (hone : s.OneBackend) {step : Step}
    (havoids : step.Avoids names flags) :
    Agree names flags (s.step step).2 t := by
  have hhandle (name : Text) (hname : names name) : (s.step step).2.handle? name = s.handle? name := by
    rw [step_eq]
    exact handle?_left_of_ne _ (fun hsame => havoids.1 name hsame hname) _ _
  have hworld : (s.step step).2.world.now = s.world.now ∧
      (s.step step).2.world.room = s.world.room ∧ ∀ flag, flags flag →
        (s.step step).2.world.isRaised (some flag) = s.world.isRaised (some flag) := by
    rcases step_world hone step with ⟨raised, rfl, hraised⟩ | ⟨xs, hxs⟩
    · rw [hraised]
      refine ⟨s.world.now_raise raised, s.world.room_raise raised, fun flag hflag => ?_⟩
      have hother : flag ≠ raised := fun hsame =>
        havoids.2 raised (List.mem_singleton_self _) (hsame ▸ hflag)
      rw [World.isRaised_raise, decide_eq_false hother, Bool.false_or]
    · exact ⟨hxs.now_eq, hxs.room_eq, fun flag _ => hxs.isRaised_eq _⟩
  obtain ⟨hnow, hroom, hraised⟩ := hworld
  constructor
  · exact h.backend_eq.trans (s.backend_step step).symm
  · exact h.now_eq.trans hnow.symm
  · exact h.room_eq.trans hroom.symm
  · intro flag hflag
    exact (h.raised_eq flag hflag).trans (hraised flag hflag).symm
  · intro name hname
    exact (h.handle_eq name hname).trans (hhandle name hname).symm
  · intro name hname object hobject
    rw [hhandle name hname] at hobject
    exact h.flag_own name hname object hobject

theorem exchanges_turn {xs : List Exchange} {step : Step}
    (h : (s.step step).2.world.exchanges = s.world.exchanges ++ xs) :
    (s.turn step).1.exchanges = xs := by
  change (s.step step).2.world.exchanges.drop s.world.exchanges.length = xs
  rw [h, List.drop_left]

theorem Agree.raise (h : Agree names flags s t) (flag : Text) :
    Agree names flags (s.step (.raise flag)).2 (t.step (.raise flag)).2 := by
  refine ⟨h.backend_eq, ?_, ?_, fun other hother => ?_, h.handle_eq, h.flag_own⟩
  · change (t.world.raise flag).now = (s.world.raise flag).now
    rw [World.now_raise, World.now_raise, h.now_eq]
  · change (t.world.raise flag).room = (s.world.raise flag).room
    rw [World.room_raise, World.room_raise, h.room_eq]
  · change (t.world.raise flag).isRaised _ = (s.world.raise flag).isRaised _
    rw [World.isRaised_raise, World.isRaised_raise, h.raised_eq other hother]

/-- The same object is left under a name in both sessions. -/
theorem Agree.left (h : Agree names flags s t) (name? : Option Text) {left : Option Handle}
    {v w : World} (hnow : v.now = w.now) (hroom : v.room = w.room)
    (hraised : ∀ flag, flags flag → v.isRaised (some flag) = w.isRaised (some flag))
    (hleft : ∀ object, left = some object → ∀ flag, object.flag = some flag → flags flag) :
    Agree names flags (s.left name? left w) (t.left name? left v) := by
  constructor
  · rw [backend_left, backend_left, h.backend_eq]
  · rw [world_left, world_left, hnow]
  · rw [world_left, world_left, hroom]
  · intro flag hflag
    rw [world_left, world_left, hraised flag hflag]
  · intro name hname
    by_cases hsame : name? = some name
    · rw [hsame, handle?_left_self, handle?_left_self, h.handle_eq name hname]
    · rw [handle?_left_of_ne _ hsame, handle?_left_of_ne _ hsame, h.handle_eq name hname]
  · intro name hname object hobject
    by_cases hsame : name? = some name
    · rw [hsame, handle?_left_self] at hobject
      rcases Option.or_eq_some_iff.mp hobject with hnew | ⟨-, hold⟩
      · exact hleft object hnew
      · exact h.flag_own name hname object hold
    · rw [handle?_left_of_ne _ hsame] at hobject
      exact h.flag_own name hname object hobject

/-- A step of the object whose names and flags these are. It finds in the other session what
it finds here, and does the same there if it is given the same answers. -/
theorem Agree.step {name key : Text} (hlogin : s.backend.loader.login = .sharedKey name key)
    (h : Agree names flags s t) (hone : s.OneBackend) {step : Step}
    (huses : step.Uses names flags) {later : List Answer}
    (hanswers : t.world.answers = (s.turn step).1.exchanges.filterMap Exchange.reply ++ later)
    (hends : (s.turn step).2.world.answers = [] → later = []) :
    (t.turn step).1 = (s.turn step).1 ∧ Agree names flags (s.turn step).2 (t.turn step).2 ∧
      (t.turn step).2.world.answers = later := by
  by_cases hraise : ∃ flag, step = .raise flag
  · obtain ⟨flag, rfl⟩ := hraise
    have hunsent (r : Session) : (r.turn (.raise flag)).1.exchanges = [] :=
      exchanges_turn ((r.world.exchanges_raise flag).trans (List.append_nil _).symm)
    rw [hunsent, List.filterMap_nil, List.nil_append] at hanswers
    refine ⟨Turn.ext rfl ((hunsent t).trans (hunsent s).symm) rfl, h.raise flag, ?_⟩
    exact (t.world.answers_raise flag).trans hanswers
  · obtain ⟨xs, hxs, hagain⟩ := Step.carry_replays hlogin (hone.about_on step)
      (fun flag hflag => hraise ⟨flag, hflag⟩) s.world
    have hleaves := step.carry_leaves (hone.about_on step) s.world
    have hs := s.step_eq step
    have ht := t.step_eq step
    rw [h.backend_eq, h.about_eq huses] at ht
    dsimp only at hs ht
    generalize step.carry s.backend (s.about step) s.world = out at hxs hagain hleaves hs
    have hworld : (s.step step).2.world = out.2.2 := by rw [hs, world_left]
    have hsent : (s.turn step).1.exchanges = xs :=
      exchanges_turn (by rw [hworld]; exact hxs.exchanges_eq)
    have hoffers : t.world.Offers s.world xs out.2.2 later :=
      ⟨h.now_eq, h.room_eq, by rw [hanswers, hsent], fun hnone => hends (hworld ▸ hnone)⟩
    obtain ⟨hresult, hobject, hpassage⟩ :=
      hagain t.world later (h.isRaised_eq huses) hoffers
    have hagree : Agree names flags (s.step step).2 (t.step step).2 := by
      rw [hs, ht, hobject]
      apply h.left
      · exact hpassage.now_eq.trans (h.now_eq.trans hxs.now_eq.symm)
      · exact hpassage.room_eq.trans (h.room_eq.trans hxs.room_eq.symm)
      · intro flag hflag
        rw [hpassage.isRaised_eq, hxs.isRaised_eq, h.raised_eq flag hflag]
      · intro object hleft flag hflag
        exact h.flag_mem huses ((hleaves object hleft).flag_eq.symm.trans hflag)
    have hworld' : (t.step step).2.world.exchanges = t.world.exchanges ++ xs := by
      rw [ht, world_left]
      exact hpassage.exchanges_eq
    refine ⟨Turn.ext ?_ ((exchanges_turn hworld').trans hsent.symm) (hagree.about_eq huses),
      hagree, ?_⟩
    · change (t.step step).1 = (s.step step).1
      rw [hs, ht, hresult, hobject]
    · change (t.step step).2.world.answers = later
      rw [ht, world_left]
      exact hoffers.answers_left hpassage

theorem answers_turn (hone : s.OneBackend) (step : Step) :
    s.world.answers =
      (s.turn step).1.exchanges.filterMap Exchange.reply ++ (s.turn step).2.world.answers := by
  rcases step_world hone step with ⟨flag, rfl, -⟩ | ⟨xs, hxs⟩
  · have hunsent : (s.turn (.raise flag)).1.exchanges = [] :=
      exchanges_turn ((s.world.exchanges_raise flag).trans (List.append_nil _).symm)
    rw [hunsent]
    exact (s.world.answers_raise flag).symm
  · rw [exchanges_turn hxs.exchanges_eq]
    exact hxs.answers_eq

/-- What the service answered in some turns. -/
def replies {ι : Type} (turns : List (ι × Turn)) : List Answer :=
  turns.flatMap fun x => x.2.exchanges.filterMap Exchange.reply

/-- Once the service has no answers left, it gives none. -/
theorem traced_unanswered {ι : Type} [DecidableEq ι] (i : ι) (hone : s.OneBackend)
    (hnone : s.world.answers = []) (steps : List (ι × Step)) :
    replies (own i (s.traced steps).1) = [] := by
  induction steps generalizing s with
  | nil => rfl
  | cons x steps ih =>
      obtain ⟨j, step⟩ := x
      have hanswers := answers_turn hone step
      rw [hnone] at hanswers
      obtain ⟨hreplies, hleft⟩ := List.append_eq_nil_iff.mp hanswers.symm
      have hrest := ih (s := (s.turn step).2) (hone.step step) hleft
      rw [traced_cons]
      by_cases hi : j = i
      · rw [hi, own_cons_self]
        exact List.append_eq_nil_iff.mpr ⟨hreplies, hrest⟩
      · rw [own_cons_of_ne hi]
        exact hrest

theorem Agree.run {ι : Type} [DecidableEq ι] (i : ι) {name key : Text}
    (hlogin : s.backend.loader.login = .sharedKey name key) (h : Agree names flags s t)
    (hone : s.OneBackend) {steps : List (ι × Step)}
    (hown : ∀ x ∈ steps, x.1 = i → x.2.Uses names flags)
    (hother : ∀ x ∈ steps, x.1 ≠ i → x.2.Avoids names flags)
    (hanswers : t.world.answers = replies (own i (s.traced steps).1)) :
    (t.traced (own i steps)).1 = own i (s.traced steps).1 ∧
      Agree names flags (s.traced steps).2 (t.traced (own i steps)).2 := by
  induction steps generalizing s t with
  | nil => exact ⟨rfl, h⟩
  | cons x steps ih =>
      obtain ⟨j, step⟩ := x
      have hlogin' : (s.turn step).2.backend.loader.login = .sharedKey name key := by
        rw [← hlogin]
        exact congrArg (fun b => b.loader.login) (s.backend_step step)
      have hone' : (s.turn step).2.OneBackend := hone.step step
      have hown' : ∀ x ∈ steps, x.1 = i → x.2.Uses names flags :=
        fun x hx => hown x (List.mem_cons_of_mem _ hx)
      have hother' : ∀ x ∈ steps, x.1 ≠ i → x.2.Avoids names flags :=
        fun x hx => hother x (List.mem_cons_of_mem _ hx)
      rw [traced_cons] at hanswers ⊢
      by_cases hi : j = i
      · subst hi
        rw [own_cons_self] at hanswers
        obtain ⟨hturn, hagree, hleft⟩ := h.step hlogin hone (hown _ List.mem_cons_self rfl) hanswers
          fun hnone => traced_unanswered j hone' hnone steps
        obtain ⟨hturns, hlast⟩ := ih hlogin' hagree hone' hown' hother' hleft
        rw [own_cons_self, own_cons_self, traced_cons, hturn, hturns]
        exact ⟨rfl, hlast⟩
      · rw [own_cons_of_ne hi] at hanswers
        rw [own_cons_of_ne hi, own_cons_of_ne hi]
        exact ih hlogin' (h.step_other hone (hother _ List.mem_cons_self hi)) hone' hown' hother' hanswers

/-- With a shared key, the steps of one object come to the same in any interleaving with
steps of others as when they run alone and its requests are answered as they were. -/
theorem objects_isolated {ι : Type} [DecidableEq ι] {b : Backend} {name key : Text}
    (hlogin : b.loader.login = .sharedKey name key) (w : World) {steps : List (ι × Step)}
    (hseparate : Separate steps) (i : ι) :
    let whole := traced { backend := b, world := w } steps
    let alone := traced { backend := b, world := { w with answers := replies (own i whole.1) } }
      (own i steps)
    alone.1 = own i whole.1 ∧ ∀ x ∈ own i steps, alone.2.about x.2 = whole.2.about x.2 := by
  let names (name : Text) : Prop := ∃ x ∈ steps, x.1 = i ∧ name ∈ x.2.name?
  let flags (flag : Text) : Prop := ∃ x ∈ steps, x.1 = i ∧ flag ∈ x.2.flags
  have hown (x : ι × Step) (hx : x ∈ steps) (hi : x.1 = i) : x.2.Uses names flags :=
    ⟨fun _ hname => ⟨x, hx, hi, hname⟩, fun _ hflag => ⟨x, hx, hi, hflag⟩⟩
  have hother (x : ι × Step) (hx : x ∈ steps) (hi : x.1 ≠ i) : x.2.Avoids names flags := by
    refine ⟨fun name hname => ?_, fun flag hflag => ?_⟩
    · rintro ⟨y, hy, rfl, hmine⟩
      exact (hseparate x hx y hy hi).1 name hname hmine
    · rintro ⟨y, hy, rfl, hmine⟩
      exact (hseparate x hx y hy hi).2 flag hflag hmine
  let start : Session := { backend := b, world := w }
  have hagree : Agree names flags start
      { backend := b, world := { w with answers := replies (own i (start.traced steps).1) } } :=
    ⟨rfl, rfl, rfl, fun _ _ => rfl, fun _ _ => rfl, fun _ _ _ hobject => by cases hobject⟩
  have hone : start.OneBackend := fun _ he => absurd he List.not_mem_nil
  obtain ⟨hturns, hlast⟩ := hagree.run i hlogin hone hown hother rfl
  refine ⟨hturns, fun x hx => ?_⟩
  obtain ⟨hmem, hi⟩ := List.mem_filter.mp hx
  exact hlast.about_eq (hown x hmem (of_decide_eq_true hi))

def keyedBackend : Backend where
  location := { root := "/", filesystem := "data", endpoint := "https://acct.dfs.core.windows.net" }
  loader := { login := .sharedKey "acct" "a2V5", accountName := none, authorityHost := "" }

/-- A writer, a lister that is halted, and a deletion. -/
def threeObjects : List (Nat × Step) :=
  [(0, .openWrite "w" "log" (some { append := true }) none none),
    (1, .openList "l" "logs" none (some "stop")),
    (0, .on "w" (.writer (.write [97]))),
    (1, .on "l" (.lister .nextPage)),
    (2, .delete "old"),
    (1, .raise "stop"),
    (1, .on "l" (.iterate none)),
    (0, .on "w" .close)]

def sixAnswers : World where
  answers := [404, 201, 202, 404, 200, 201].map fun status => .response ⟨status, [], [], ""⟩

theorem threeObjects_isolated :
    keyedBackend.loader.login = .sharedKey "acct" "a2V5" ∧ Separate threeObjects ∧ ∀ i : Nat,
      let whole := traced { backend := keyedBackend, world := sixAnswers } threeObjects
      let alone := traced
        { backend := keyedBackend
          world := { sixAnswers with answers := replies (own i whole.1) } }
        (own i threeObjects)
      alone.1 = own i whole.1 ∧
        ∀ x ∈ own i threeObjects, alone.2.about x.2 = whole.2.about x.2 := by
  have hseparate : Separate threeObjects := by decide
  exact ⟨rfl, hseparate, fun i => objects_isolated rfl sixAnswers hseparate i⟩

end Session

end DataLake
