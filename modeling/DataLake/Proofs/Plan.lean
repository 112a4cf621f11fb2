import DataLake.Proofs.Errand
import Mathlib.Tactic.Choose

/-!
Plans. A plan is what a step of an object does against the world, as a tree: it looks
whether the object is halted and how much room there is, runs errands, and ends with a
result and the object after it. Every step of this library has a plan that heeds its
errands: an errand that fails is the last one, and the step fails as the errand did. What
holds of every step is shown by induction on plans, once.
-/

namespace DataLake

inductive Plan (α σ : Type) where
  | done (r : Except Failure α) (s : σ)
  | look (next : Bool → Room → Plan α σ)
  | errand (e : Errand) (next : Except Failure Response → Plan α σ)

/-- A failure that is no refusal. If it is a fault, it tells what a step is about that may
run such errands. -/
def Failure.Told (b : Backend) (asks : Errand → Prop) (err : Failure) : Prop :=
  ¬ err.IsRefusal ∧ ∀ f, err = .fault f → ∃ e, asks e ∧ f.Tells b e.subject

theorem Failure.told_of_plain {b : Backend} {asks : Errand → Prop} {err : Failure}
    (h : ∀ f, err ≠ .fault f) : err.Told b asks := by
  refine ⟨fun hrefusal => ?_, fun f hf => absurd hf (h f)⟩
  cases err with
  | fault f => exact h f rfl
  | _ => exact hrefusal

theorem Errand.told {asks : Errand → Prop} {e : Errand} (he : asks e) (b : Backend) {err : Failure}
    (h : ¬ err.IsRefusal) : (err.mapFault (e.mark b)).Told b asks := by
  refine ⟨fun hrefusal => h (isRefusal_mapFault_mark.mp hrefusal), fun f hf => ?_⟩
  cases err with
  | fault fault =>
      cases hf
      exact ⟨e, he, e.subject.mark_tells b e.title fault⟩
  | _ => cases hf

namespace Plan

variable {α β σ τ : Type} {b : Backend} {flag : Option Text} {asks : Errand → Prop}
  {keeps : σ → Prop} {keeps' : τ → Prop}

def run (b : Backend) (flag : Option Text) : Plan α σ → World → Except Failure α × σ × World
  | done r s, w => (r, s, w)
  | look next, w => (next (w.isRaised flag) w.room).run b flag w
  | errand e next, w =>
      match e.run b w with
      | (r, w) => (next r).run b flag w

/-- A plan, and then another one that depends on how it ended. -/
def bind : Plan α σ → (Except Failure α → σ → Plan β τ) → Plan β τ
  | done r s, f => f r s
  | look next, f => look fun up room => (next up room).bind f
  | errand e next, f => errand e fun r => (next r).bind f

theorem run_bind (p : Plan α σ) (f : Except Failure α → σ → Plan β τ) (w : World) :
    (p.bind f).run b flag w =
      match p.run b flag w with
      | (r, s, w) => (f r s).run b flag w := by
  induction p generalizing w with
  | done r s => rfl
  | look next ih => exact ih _ _ w
  | errand e next ih => exact ih _ _

/-- All errands are such as the step asks, the first one that fails is the last one, the
step then fails as it did, and what the step leaves has the given property. -/
def Heeds (b : Backend) (asks : Errand → Prop) (keeps : σ → Prop) : Plan α σ → Prop
  | done r s => keeps s ∧ ∀ e, r = .error e → e.Told b asks
  | look next => ∀ up room, (next up room).Heeds b asks keeps
  | errand e next =>
      asks e ∧ (∀ r, (next (.ok r)).Heeds b asks keeps) ∧
        ∀ err, ∃ s, keeps s ∧ next (.error err) = done (.error err) s

theorem Heeds.keeps_run {p : Plan α σ} (h : p.Heeds b asks keeps) (w : World) :
    keeps (p.run b flag w).2.1 := by
  induction p generalizing w with
  | done r s => exact h.1
  | look next ih => exact ih _ _ (h _ _) w
  | errand e next ih =>
      obtain ⟨-, hok, herror⟩ := h
      unfold run
      rcases e.run b w with ⟨err | r, v⟩
      · obtain ⟨s, hs, hnext⟩ := herror err
        simp only [hnext]
        exact hs
      · exact ih _ (hok r) v

theorem run_passage (p : Plan α σ) (w : World) : ∃ xs, w.Passage xs (p.run b flag w).2.2 := by
  induction p generalizing w with
  | done r s => exact ⟨[], .refl w⟩
  | look next ih => exact ih _ _ w
  | errand e next ih =>
      obtain ⟨xs, hxs⟩ := e.run_passage b w
      obtain ⟨ys, hys⟩ := ih (e.run b w).1 (e.run b w).2
      exact ⟨xs ++ ys, hxs.trans hys⟩

theorem Heeds.bind {p : Plan α σ} {f : Except Failure α → σ → Plan β τ}
    (h : p.Heeds b asks keeps)
    (hf : ∀ a s, keeps s → (f (.ok a) s).Heeds b asks keeps')
    (hstop : ∀ e s, keeps s → ∃ s', keeps' s' ∧ f (.error e) s = done (.error e) s') :
    (p.bind f).Heeds b asks keeps' := by
  induction p with
  | done r s =>
      obtain ⟨hs, htold⟩ := h
      cases r with
      | ok a => exact hf a s hs
      | error e =>
          obtain ⟨s', hs', hnext⟩ := hstop e s hs
          unfold Plan.bind
          rw [hnext]
          exact ⟨hs', fun e' he' => by cases he'; exact htold e rfl⟩
  | look next ih => exact fun up room => ih up room (h up room)
  | errand e next ih =>
      obtain ⟨hasks, hok, herror⟩ := h
      refine ⟨hasks, fun r => ih _ (hok r), fun err => ?_⟩
      obtain ⟨s, hs, hnext⟩ := herror err
      obtain ⟨s', hs', hlast⟩ := hstop err s hs
      exact ⟨s', hs', by dsimp only; rw [hnext]; exact hlast⟩

end Plan

/-- The step has a plan that heeds its errands. -/
def Planned {α σ : Type} (b : Backend) (flag : Option Text) (asks : Errand → Prop)
    (keeps : σ → Prop) (x : World → Except Failure α × σ × World) : Prop :=
  ∃ p : Plan α σ, p.Heeds b asks keeps ∧ ∀ w, x w = p.run b flag w

/-- The action has a plan that heeds its errands. -/
def Conducted {α : Type} (b : Backend) (flag : Option Text) (asks : Errand → Prop)
    (x : Action α) : Prop :=
  Planned b flag asks (fun _ : Unit => True) fun w => ((x w).1, (), (x w).2)

section

variable {α β σ τ : Type} {b : Backend} {flag : Option Text} {asks : Errand → Prop}
  {keeps : σ → Prop} {keeps' : τ → Prop}

theorem planned_done {r : Except Failure α} {s : σ} (hs : keeps s)
    (hr : ∀ e, r = .error e → e.Told b asks) : Planned b flag asks keeps fun w => (r, s, w) :=
  ⟨.done r s, ⟨hs, hr⟩, fun _ => rfl⟩

theorem planned_ok (a : α) {s : σ} (hs : keeps s) :
    Planned b flag asks keeps fun w => (.ok a, s, w) :=
  planned_done hs fun _ h => by cases h

theorem planned_error {err : Failure} {s : σ} (hs : keeps s) (herr : err.Told b asks) :
    Planned b flag asks keeps fun w => ((.error err : Except Failure α), s, w) :=
  planned_done hs fun _ h => by cases h; exact herr

theorem planned_look {f : Bool → World → Except Failure α × σ × World}
    (h : ∀ up, Planned b flag asks keeps (f up)) :
    Planned b flag asks keeps fun w => f (w.isRaised flag) w := by
  choose p hp hrun using h
  exact ⟨.look fun up _ => p up, fun up _ => hp up, fun w => hrun _ w⟩

theorem planned_room {f : Room → World → Except Failure α × σ × World}
    (h : ∀ room, Planned b flag asks keeps (f room)) :
    Planned b flag asks keeps fun w => f w.room w := by
  choose p hp hrun using h
  exact ⟨.look fun _ room => p room, fun _ room => hp room, fun w => hrun _ w⟩

theorem planned_ite {c : Prop} [Decidable c] {x y : World → Except Failure α × σ × World}
    (hx : c → Planned b flag asks keeps x) (hy : ¬ c → Planned b flag asks keeps y) :
    Planned b flag asks keeps fun w => if c then x w else y w := by
  by_cases hc : c
  · simpa only [if_pos hc] using hx hc
  · simpa only [if_neg hc] using hy hc

/-- An object looks at its flag. -/
theorem planned_halt {flag' : Option Text} {x y : World → Except Failure α × σ × World}
    (hflag : flag' = flag) (hx : Planned b flag asks keeps x) (hy : Planned b flag asks keeps y) :
    Planned b flag asks keeps fun w => if w.isRaised flag' then x w else y w := by
  subst hflag
  exact planned_look (f := fun up w => if up then x w else y w) fun up =>
    planned_ite (fun _ => hx) fun _ => hy

theorem Planned.passage {x : World → Except Failure α × σ × World}
    (h : Planned b flag asks keeps x) (w : World) : ∃ xs, w.Passage xs (x w).2.2 := by
  obtain ⟨p, hp, hrun⟩ := h
  rw [hrun w]
  exact p.run_passage w

theorem Planned.keeps_left {x : World → Except Failure α × σ × World}
    (h : Planned b flag asks keeps x) (w : World) : keeps (x w).2.1 := by
  obtain ⟨p, hp, hrun⟩ := h
  rw [hrun w]
  exact hp.keeps_run w

theorem Planned.mono {keeps' : σ → Prop} {x : World → Except Failure α × σ × World}
    (h : Planned b flag asks keeps x) (hkeeps : ∀ s, keeps s → keeps' s) :
    Planned b flag asks keeps' x := by
  obtain ⟨p, hp, hrun⟩ := h
  refine ⟨p, ?_, hrun⟩
  clear hrun
  induction p with
  | done r s => exact ⟨hkeeps s hp.1, hp.2⟩
  | look next ih => exact fun up room => ih up room (hp up room)
  | errand e next ih =>
      refine ⟨hp.1, fun r => ih _ (hp.2.1 r), fun err => ?_⟩
      obtain ⟨s, hs, hnext⟩ := hp.2.2 err
      exact ⟨s, hkeeps s hs, hnext⟩

/-- One step, and then another unless the first one fails. How the whole goes on is said
for each end of the first step. -/
theorem Planned.bind {x : World → Except Failure α × σ × World}
    {y : World → Except Failure β × τ × World} {g : σ → τ} (hx : Planned b flag asks keeps x)
    (hg : ∀ s, keeps s → keeps' (g s))
    (herror : ∀ e s w v, x w = (.error e, s, v) → y w = (.error e, g s, v))
    (hok : ∀ a s, keeps s → ∃ f, Planned b flag asks keeps' f ∧
      ∀ w v, x w = (.ok a, s, v) → y w = f v) : Planned b flag asks keeps' y := by
  classical
  obtain ⟨p, hp, hrun⟩ := hx
  choose f hf hgoes using hok
  choose q hq hqrun using hf
  -- What comes after an object that the first step cannot leave is of no matter.
  let next (r : Except Failure α) (s : σ) : Plan β τ :=
    match r with
    | .error e => .done (.error e) (g s)
    | .ok a => if hs : keeps s then q a s hs else .done (.error .halted) (g s)
  refine ⟨p.bind next, hp.bind (fun a s hs => ?_) (fun e s hs => ⟨g s, hg s hs, rfl⟩), fun w => ?_⟩
  · simpa only [next, dif_pos hs] using hq a s hs
  · have hkept : keeps (p.run b flag w).2.1 := hp.keeps_run w
    rw [Plan.run_bind]
    rcases hw : p.run b flag w with ⟨e | a, s, v⟩
    · exact herror e s w v ((hrun w).trans hw)
    · rw [hw] at hkept
      simp only [next, dif_pos hkept]
      exact (hgoes a s hkept w v ((hrun w).trans hw)).trans (hqrun a s hkept v)

theorem Planned.map {x : World → Except Failure α × σ × World}
    {y : World → Except Failure β × τ × World} (hx : Planned b flag asks keeps x) (f : α → β)
    (g : σ → τ) (hg : ∀ s, keeps s → keeps' (g s))
    (hy : ∀ w r s v, x w = (r, s, v) → y w = (r.map f, g s, v)) :
    Planned b flag asks keeps' y :=
  hx.bind hg (fun _ s w v hw => hy w _ s v hw) fun a s hs =>
    ⟨_, planned_ok (f a) (hg s hs), fun w v hw => hy w _ s v hw⟩

/-- An action, and then a step of an object unless the action fails. -/
theorem Conducted.step {x : Action α} {y : World → Except Failure β × τ × World} {s : τ}
    (hx : Conducted b flag asks x) (hs : keeps' s)
    (herror : ∀ e w v, x w = (.error e, v) → y w = (.error e, s, v))
    (hok : ∀ a, ∃ f, Planned b flag asks keeps' f ∧ ∀ w v, x w = (.ok a, v) → y w = f v) :
    Planned b flag asks keeps' y := by
  have hends {r : Except Failure α} {w v : World} (h : ((x w).1, (), (x w).2) = (r, (), v)) :
      x w = (r, v) := by
    cases h
    rfl
  refine Planned.bind (g := fun _ => s) hx (fun _ _ => hs)
    (fun e _ w v hw => herror e w v (hends hw)) fun a _ _ => ?_
  obtain ⟨f, hf, hgoes⟩ := hok a
  exact ⟨f, hf, fun w v hw => hgoes w v (hends hw)⟩

theorem Conducted.bind {x : Action α} {f : α → Action β} (hx : Conducted b flag asks x)
    (hf : ∀ a, Conducted b flag asks (f a)) : Conducted b flag asks (x >>= f) := by
  have hbind (w : World) : (x >>= f) w = Action.bind x f w := rfl
  refine hx.step (s := ()) trivial (fun e w v hw => ?_) fun a => ⟨_, hf a, fun w v hw => ?_⟩ <;>
    simp only [hbind, Action.bind, hw]

theorem conducted_pure (a : α) : Conducted b flag asks (pure a : Action α) :=
  planned_ok a trivial

/-- An errand by itself. -/
theorem Errand.conducted_run {e : Errand} (he : asks e) (b : Backend) :
    Conducted b flag asks (e.run b) := by
  refine ⟨.errand e fun r => .done r (), ⟨he, fun r => ⟨trivial, fun err h => by cases h⟩, ?_⟩,
    fun w => rfl⟩
  exact fun err => ⟨(), trivial, rfl⟩

/-- An errand whose response is read. What goes wrong in reading it is a failure of the
operation, too. -/
theorem Errand.conducted {e : Errand} (he : asks e) (b : Backend)
    (read : Response → Except Failure α) (hread : ∀ r, NoRefusal (read r)) :
    Conducted b flag asks
      (Action.mapFault (e.mark b)
        (b.perform e.operation e.accepted >>= fun r => Action.ofExcept (read r))) := by
  have hlook (r : Response) : Conducted b flag asks
      (Action.ofExcept ((read r).mapError (Failure.mapFault (e.mark b)))) := by
    refine planned_done trivial fun err herr => ?_
    cases hr : read r with
    | ok a =>
        rw [hr] at herr
        cases herr
    | error cause =>
        rw [hr] at herr
        cases herr
        exact Errand.told he b (hread r cause hr)
  have hrun : Action.mapFault (e.mark b)
      (b.perform e.operation e.accepted >>= fun r => Action.ofExcept (read r)) =
      e.run b >>= fun r => Action.ofExcept ((read r).mapError (Failure.mapFault (e.mark b))) := by
    funext w
    rw [Action.mapFault_eq]
    change ((Action.bind (b.perform e.operation e.accepted) _ w).1.mapError _,
      (Action.bind (b.perform e.operation e.accepted) _ w).2) = Action.bind (e.run b) _ w
    unfold Action.bind run
    rw [Action.mapFault_eq]
    rcases b.perform e.operation e.accepted w with ⟨err | r, v⟩ <;> rfl
  rw [hrun]
  exact (conducted_run he b).bind hlook

end

end DataLake
