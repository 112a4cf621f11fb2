import DataLake.Proofs.StepPlan
import Mathlib.Data.List.Forall2

/-!
What a session says to the service and to the token source. All of it is one
conversation, a list of tries: each loads a credential of its own, signs one request
with it and sends that request. A try that comes no further than loading or signing
leaves the answers of the service for later ones, and the step that made it fails.
-/

namespace DataLake

/-- All tries but a last one were sent, and with such a last one the step failed. -/
def FailsLast (tries : List Try) (failed : Prop) : Prop :=
  ∃ (sent : List Try) (last : Option Try), tries = sent ++ last.toList ∧
    (∀ t ∈ sent, t.IsSent) ∧ (last ≠ none → failed)

namespace Backend

variable {b : Backend} {w w' w'' : World} {failed : Prop}

/-- Between two worlds there was a conversation, in which only the last try may have
come to nothing. -/
def Talked (b : Backend) (w w' : World) (failed : Prop) : Prop :=
  ∃ tries, w'.log = w.log ++ tries.flatMap (Try.events b.loader) ∧ w'.now = w.now ∧
    b.Tries w.now w.supply tries w'.supply ∧ FailsLast tries failed

theorem Talked.silent (hlog : w'.log = w.log) (hnow : w'.now = w.now)
    (hsupply : w'.supply = w.supply) : b.Talked w w' failed := by
  refine ⟨[], by simpa using hlog, hnow, ?_, [], none, rfl, by simp, by simp⟩
  rw [hsupply]
  exact .nil _

theorem Talked.same : b.Talked w w failed :=
  .silent rfl rfl rfl

theorem Talked.raise (w : World) (flag : Text) : b.Talked w (w.raise flag) failed := by
  unfold World.raise
  split <;> exact .silent (by simp) (by simp) (by simp [World.supply])

theorem Talked.mono {fails : Prop} (h : b.Talked w w' failed) (himp : failed → fails) :
    b.Talked w w' fails := by
  obtain ⟨tries, hlog, hnow, htries, sent, last, hsplit, hsent, hlast⟩ := h
  exact ⟨tries, hlog, hnow, htries, sent, last, hsplit, hsent, fun hsome => himp (hlast hsome)⟩

theorem Talked.trans (hfirst : b.Talked w w' False) (hsecond : b.Talked w' w'' failed) :
    b.Talked w w'' failed := by
  obtain ⟨first, hlog, hnow, htries, sent, last, hsplit, hsent, hlast⟩ := hfirst
  obtain ⟨second, hlog', hnow', htries', sent', last', hsplit', hsent', hlast'⟩ := hsecond
  -- The first step did not fail, so all of its tries were sent.
  cases last with
  | some t => exact (hlast (by simp)).elim
  | none =>
      rw [hnow] at htries'
      refine ⟨first ++ second, ?_, hnow'.trans hnow, htries.append htries', sent ++ sent', last', ?_,
        ?_, hlast'⟩
      · rw [hlog', hlog, List.flatMap_append, List.append_assoc]
      · simp [hsplit, hsplit']
      · intro t ht
        rcases List.mem_append.mp ht with ht | ht
        · exact hsent t ht
        · exact hsent' t ht

abbrev Went {α : Type} (b : Backend) (w : World) (result : Except Failure α) (w' : World) : Prop :=
  b.Talked w w' (∃ e, result = .error e)

theorem Went.of_ok {α : Type} {a : α} (h : b.Went w (.ok a : Except Failure α) w') :
    b.Talked w w' failed := by
  refine h.mono fun herror => ?_
  obtain ⟨e, he⟩ := herror
  cases he

theorem Went.of_error {α β : Type} {e f : Failure} (h : b.Went w (.error e : Except Failure α) w') :
    b.Went w (.error f : Except Failure β) w' :=
  h.mono fun _ => ⟨f, rfl⟩

/-- Running an errand is one try at most. -/
theorem errand_went (b : Backend) (e : Errand) (w : World) :
    b.Went w (e.run b w).1 (e.run b w).2 := by
  have hexchanged := b.exchange_exchanged e.operation w
  have hrun := e.run_eq b w
  generalize b.exchange e.operation w = out at hexchanged hrun
  cases hexchanged with
  | unbuilt err hplain =>
      rw [hrun]
      exact .same
  | unloaded plain err tokens hplain hload =>
      rw [hrun]
      refine ⟨[.unloaded], rfl, rfl, .unloaded hload (.nil _), [], some .unloaded, rfl, by simp, ?_⟩
      exact fun _ => ⟨_, rfl⟩
  | unsigned plain c err tokens hplain hload hsign =>
      rw [hrun]
      refine ⟨[.unsigned c], rfl, rfl, .unsigned hload hsign (.nil _), [], some (.unsigned c), rfl,
        by simp, ?_⟩
      exact fun _ => ⟨_, rfl⟩
  | sent plain c x tokens hplain hload hsign hreply =>
      rw [hrun]
      refine ⟨[.sent c x], rfl, rfl, .sent hload (Signing.sign_ok hsign) hreply (.nil _),
        [.sent c x], none, rfl, ?_, by simp⟩
      intro t ht
      rw [List.mem_singleton.mp ht]
      trivial

end Backend

/-- A plan that heeds its errands talks in turn, and an errand that fails is its last one. -/
theorem Plan.Heeds.went {α σ : Type} {b : Backend} {flag : Option Text} {asks : Errand → Prop}
    {keeps : σ → Prop} {p : Plan α σ} (h : p.Heeds b asks keeps) (w : World) :
    b.Went w (p.run b flag w).1 (p.run b flag w).2.2 := by
  induction p generalizing w with
  | done r s => exact .same
  | look next ih => exact ih _ _ (h _ _) w
  | errand e next ih =>
      obtain ⟨-, hok, herror⟩ := h
      have hwent := b.errand_went e w
      unfold Plan.run
      rcases hrun : e.run b w with ⟨err | r, v⟩
      · rw [hrun] at hwent
        obtain ⟨s, -, hnext⟩ := herror err
        simp only [hnext]
        exact hwent.of_error
      · rw [hrun] at hwent
        exact hwent.of_ok.trans (ih _ (hok r) v)

namespace Session

theorem step_went {s : Session} (hs : s.OneBackend) (step : Step) :
    s.backend.Went s.world (s.step step).1.outcome (s.step step).2.world := by
  rcases hs.step_runs step with ⟨flag, rfl, -⟩ | ⟨p, hp, houtcome, hworld⟩
  · exact .raise s.world flag
  · rw [houtcome, hworld]
    exact hp.went s.world

/-- The tries of each step in a run of a session. -/
theorem run_went {s : Session} (hs : s.OneBackend) (steps : List Step) :
    let (results, s') := s.run steps
    ∃ turns : List (List Try),
      s'.world.log = s.world.log ++ turns.flatten.flatMap (Try.events s.backend.loader) ∧
      s.backend.Tries s.world.now s.world.supply turns.flatten s'.world.supply ∧
      List.Forall₂ (fun tries r => FailsLast tries (∃ e, r.outcome = .error e)) turns results := by
  induction steps generalizing s with
  | nil => exact ⟨[], by simp, .nil _, .nil⟩
  | cons step steps ih =>
      obtain ⟨tries, hlog, hnow, htries, hfails⟩ := step_went hs step
      have hbackend := s.backend_step step
      have hone := hs.step step
      unfold run
      rcases hstep : s.step step with ⟨r, t⟩
      rw [hstep] at hlog hnow htries hfails hbackend hone
      dsimp only at hlog hnow htries hfails hbackend
      have hrest := ih hone
      rcases hrun : t.run steps with ⟨results, s'⟩
      rw [hrun, hbackend] at hrest
      obtain ⟨turns, hlog', htries', hall⟩ := hrest
      simp only [hrun]
      rw [hnow] at htries'
      refine ⟨tries :: turns, ?_, ?_, .cons hfails hall⟩
      · rw [hlog', hlog, List.flatten_cons, List.flatMap_append, List.append_assoc]
      · rw [List.flatten_cons]
        exact htries.append htries'

/-- All that a session on a backend says is one conversation: every request is signed
with a credential that was loaded for it, and verifies as it is sent; and where loading
or signing fails nothing is sent and the step fails. -/
theorem every_request_signed (b : Backend) (w : World) (steps : List Step) :
    let (results, s) := run { backend := b, world := w } steps
    ∃ turns : List (List Try),
      s.world.log = w.log ++ turns.flatten.flatMap (Try.events b.loader) ∧
      b.Tries w.now w.supply turns.flatten s.world.supply ∧
      List.Forall₂ (fun tries r => FailsLast tries (∃ e, r.outcome = .error e)) turns results :=
  run_went (fun _ he => absurd he List.not_mem_nil) steps

end Session

end DataLake
