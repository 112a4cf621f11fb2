import DataLake.Proofs.Nesting
import DataLake.Proofs.StepPlan

/-!
The course of a step. A step sends requests one after the other, and the status of each
response decides alone whether the step goes on: each kind of errand has its own accepted
statuses, and any other status ends the step with a fault that reports the response. The
one exception is a response whose body is nested too deep to be read. Every fault that a
step ends with tells the operation, and where that was.
-/

namespace DataLake

/-- What the response of an errand makes of the step when its status is not accepted. -/
inductive Refused (b : Backend) (depth : Nat) (e : Errand) (r : Response) : Failure → Prop where
  | reported (f : Fault) (report : Report) (detail : Text)
      (hread : Json.readBytes (Fault.readableBody r) depth ≠ .error .tooDeep)
      (hcause : f.cause = .refused report detail) (hstatus : report.status = r.status)
      (hbody : r.status ≠ 0 → report.body = r.body) (htells : f.Tells b e.subject) :
      Refused b depth e r (.fault f)
  | nested (hdeep : Json.readBytes (Fault.readableBody r) depth = .error .tooDeep) :
      Refused b depth e r .nestedTooDeep

/-- The errands that a step runs with the exchange of each, and how the step ends: only a
response with an accepted status lets it go on. -/
inductive Course (b : Backend) (depth : Nat) (asks : Errand → Prop) :
    List (Errand × Exchange) → Option Failure → Prop where
  | ended (failure : Option Failure) (hown : ∀ err, failure = some err → err.Told b asks) :
      Course b depth asks [] failure
  | unanswered (e : Errand) (x : Exchange) (err : Failure) (hasks : asks e)
      (hsigned : b.Signs e.operation x.request) (hnone : x.response? = none)
      (hplain : ∀ f, err ≠ .fault f) : Course b depth asks [(e, x)] (some err)
  | refused (e : Errand) (x : Exchange) (r : Response) (err : Failure) (hasks : asks e)
      (hsigned : b.Signs e.operation x.request) (hresponse : x.response? = some r)
      (hstatus : r.status ∉ e.accepted) (hrefused : Refused b depth e r err) :
      Course b depth asks [(e, x)] (some err)
  | accepted (e : Errand) (x : Exchange) (r : Response) (rest : List (Errand × Exchange))
      (failure : Option Failure) (hasks : asks e) (hsigned : b.Signs e.operation x.request)
      (hresponse : x.response? = some r) (hstatus : r.status ∈ e.accepted)
      (hrest : Course b depth asks rest failure) : Course b depth asks ((e, x) :: rest) failure

def failure? {α : Type} : Except Failure α → Option Failure
  | .ok _ => none
  | .error e => some e

theorem refused_ofResponse (b : Backend) (depth : Nat) (e : Errand) (r : Response) :
    Refused b depth e r ((Failure.ofResponse r depth).mapFault (e.mark b)) := by
  have hmade (fields : Fault.ErrorFields)
      (hread : Json.readBytes (Fault.readableBody r) depth ≠ .error .tooDeep) :
      Refused b depth e r (.fault (e.mark b (Fault.ofResponse r fields))) := by
    let report : Report := ⟨r.status, Fault.readableBody r, .ofStatus r.status, Fault.errorCode r fields⟩
    have hcause : (e.mark b (Fault.ofResponse r fields)).cause =
        .refused report (Fault.errorDetail r fields).text := by
      rw [e.cause_mark, Fault.ofResponse, Fault.cause_withContext]
    refine .reported _ report _ hread hcause rfl (fun hzero => ?_) (e.subject.mark_tells b e.title _)
    simp [report, Fault.readableBody, hzero]
  unfold Failure.ofResponse Fault.errorFields
  cases hread : Json.readBytes (Fault.readableBody r) depth with
  | error err =>
      cases err with
      | tooDeep => exact .nested hread
      | malformed => exact hmade [] (by simp [hread])
  | ok value =>
      dsimp only
      split
      · next fields hfields =>
        split at hfields <;> exact hmade fields (by simp [hread])
      · next hnone =>
        split at hnone <;> cases hnone

/-- A plan that heeds its errands takes a course, and sends nothing else. -/
theorem Plan.Heeds.takes {α σ : Type} {b : Backend} {flag : Option Text} {asks : Errand → Prop}
    {keeps : σ → Prop} {p : Plan α σ} (h : p.Heeds b asks keeps) (w : World) :
    ∃ course, w.Passage (course.map Prod.snd) (p.run b flag w).2.2 ∧
      Course b w.room.nesting asks course (failure? (p.run b flag w).1) := by
  induction p generalizing w with
  | done r s =>
      refine ⟨[], .refl w, .ended _ fun err herr => h.2 err ?_⟩
      change failure? r = some err at herr
      cases r with
      | ok a => cases herr
      | error e =>
          cases herr
          rfl
  | look next ih => exact ih _ _ (h _ _) w
  | errand e next ih =>
      obtain ⟨hasks, hok, herror⟩ := h
      have hran := e.run_ran b w
      unfold Plan.run
      generalize e.run b w = out at hran
      -- An errand that fails is the last one, and one that does not was accepted.
      cases hran with
      | unsent err w' hpassage hother =>
          obtain ⟨s, -, hnext⟩ := herror (err.mapFault (e.mark b))
          simp only [hnext]
          refine ⟨[], hpassage, .ended _ fun err' herr' => ?_⟩
          cases herr'
          exact Errand.told hasks b hother
      | unanswered err x w' hpassage hsigned hnone hplain =>
          obtain ⟨s, -, hnext⟩ := herror err
          simp only [hnext]
          exact ⟨[(e, x)], hpassage, .unanswered e x err hasks hsigned hnone hplain⟩
      | refused x r w' hpassage hsigned hresponse hstatus =>
          obtain ⟨s, -, hnext⟩ := herror ((Failure.ofResponse r w.room.nesting).mapFault (e.mark b))
          simp only [hnext]
          exact ⟨[(e, x)], hpassage, .refused e x r _ hasks hsigned hresponse hstatus
            (refused_ofResponse b _ e r)⟩
      | accepted x r w' hpassage hsigned hresponse hstatus =>
          obtain ⟨rest, hrest, hcourse⟩ := ih _ (hok r) w'
          rw [hpassage.room_eq] at hcourse
          exact ⟨(e, x) :: rest, hpassage.trans hrest,
            .accepted e x r rest _ hasks hsigned hresponse hstatus hcourse⟩

/-- A fault at the end of a course tells what one of its errands is about. -/
theorem Course.tells {b : Backend} {depth : Nat} {asks : Errand → Prop}
    {course : List (Errand × Exchange)} {f : Fault}
    (h : Course b depth asks course (some (.fault f))) :
    ∃ e, asks e ∧ f.Tells b e.subject := by
  generalize hfailure : some (Failure.fault f) = failure at h
  induction h with
  | ended failure hown => exact (hown _ hfailure.symm).2 f rfl
  | unanswered e x err hasks hsigned hnone hplain =>
      cases hfailure
      exact absurd rfl (hplain f)
  | refused e x r err hasks hsigned hresponse hstatus hrefused =>
      cases hfailure
      cases hrefused with
      | reported f report detail hread hcause hstatus hbody htells => exact ⟨e, hasks, htells⟩
  | accepted e x r rest failure hasks hsigned hresponse hstatus hrest ih => exact ih hfailure

/-- The path of the object. A stream sends no requests, and knows no path. -/
def Handle.path? : Handle → Option Text
  | stream _ => none
  | lister l => some l.path
  | writer t => some t.upload.path

/-- What a step is about, when the object of its name is the given one. -/
def Step.subject? (step : Step) (h? : Option Handle) : Option Subject :=
  match step with
  | createDir path | stat path | delete path | openRead _ path _ _ | fetchPage path _ _ =>
      some { path }
  | rename source target => some { path := source, target := some target }
  | on _ _ => (h?.bind Handle.path?).map fun path => { path }
  | info | openList .. | openWrite .. | raise _ => none

theorem Step.Asks.subject_eq {step : Step} {h? : Option Handle} {e : Errand}
    (h : step.Asks h? e) : step.subject? h? = some e.subject := by
  cases step with
  | createDir | stat | delete | openRead | fetchPage =>
      cases h
      rfl
  | rename source target => obtain rfl | rfl := h <;> rfl
  | info | openList | openWrite | raise => cases h
  | on name act =>
      obtain ⟨object, rfl, he⟩ := h
      cases object with
      | stream s => cases he
      | lister l =>
          obtain ⟨token, rfl⟩ := he
          rfl
      | writer t =>
          cases e with
          | createFile path options =>
              obtain ⟨rfl, -⟩ := he
              rfl
          | append path | flush path | measure path =>
              cases he
              rfl
          | _ => cases he

namespace Session

/-- In every session, the requests of a step take a course: an accepted status lets the
step go on, any other one ends it and is reported. A fault that the step ends with tells
the operation, the service, the filesystem and the path, and a move its target. -/
theorem steps_take_courses (b : Backend) (w : World) (steps : List Step) (step : Step) :
    let s := (run { backend := b, world := w } steps).2
    let (result, s') := s.step step
    ∃ course : List (Errand × Exchange),
      s'.world.exchanges = s.world.exchanges ++ course.map Prod.snd ∧
      Course b s.world.room.nesting (step.Asks (s.about step)) course (failure? result.outcome) ∧
      ∀ f, result.outcome = .error (.fault f) →
        ∃ subject, step.subject? (s.about step) = some subject ∧ f.Tells b subject := by
  have hopened : OneBackend { backend := b, world := w } :=
    fun _ he => absurd he List.not_mem_nil
  obtain ⟨hone, hbackend⟩ := hopened.run steps
  generalize (run { backend := b, world := w } steps).2 = s at hone hbackend
  cases hbackend
  dsimp only
  rcases hone.step_runs step with ⟨flag, rfl, hraised⟩ | ⟨p, hp, houtcome, hworld⟩
  · refine ⟨[], ?_, .ended none (by simp), fun f hf => by cases hf⟩
    rw [hraised, List.map_nil, List.append_nil]
    exact s.world.exchanges_raise flag
  · obtain ⟨course, hpassage, hcourse⟩ := hp.takes s.world
    rw [houtcome, hworld]
    refine ⟨course, hpassage.exchanges_eq, hcourse, fun f hf => ?_⟩
    rw [hf] at hcourse
    obtain ⟨e, hasks, htells⟩ := Course.tells hcourse
    exact ⟨e.subject, hasks.subject_eq, htells⟩

end Session

def filesBackend : Backend where
  location := { root := "/", filesystem := "data", endpoint := "https://acct.dfs.core.windows.net" }
  loader := { login := .token, accountName := none, authorityHost := "" }

/-- A service that answers one request, to a client with a token. -/
def answering (r : Response) : World where
  answers := [.response r]
  tokens := [.token "t"]

theorem exchange_answering {op : Operation}
    (hrequest : (op.request filesBackend.location).toOption.isSome = true) (r : Response) :
    (filesBackend.exchange op (answering r)).1 = .ok r := by
  let c : Credential := { accountName := none, token := some "t" }
  have hdate : (Signing.dateValue 0).toOption.isSome = true := by decide +kernel
  have hsigned (plain : Request) :
      (Signing.sign filesBackend.version 0 c plain).2 = .ok () := by
    unfold Signing.sign
    cases hd : Signing.dateValue 0 with
    | error e =>
        rw [hd] at hdate
        cases hdate
    | ok date => rfl
  have hexchanged := filesBackend.exchange_exchanged op (answering r)
  generalize filesBackend.exchange op (answering r) = out at hexchanged
  cases hexchanged with
  | unbuilt e hplain =>
      rw [hplain] at hrequest
      cases hrequest
  | unloaded plain e tokens hplain hload => cases hload
  | unsigned plain c' e tokens hplain hload hsign =>
      cases hload
      cases (hsigned plain).symm.trans hsign
  | sent plain c' x tokens hplain hload hsign hreply =>
      unfold Exchange.outcome
      rw [hreply]
      rfl

def refusing (body : Bytes) : World where
  answers := [.response ⟨500, [], body, ""⟩]
  tokens := [.token "t"]

theorem exchange_refusing (body : Bytes) :
    (filesBackend.exchange (.delete "a") (refusing body)).1 = .ok ⟨500, [], body, ""⟩ :=
  exchange_answering (by decide +kernel) ⟨500, [], body, ""⟩

theorem Backend.delete_nested {b : Backend} {path : Text} {w : World} {r : Response}
    (hexchange : (b.exchange (.delete path) w).1 = .ok r) (hstatus : r.status ∉ [200, 404])
    (hdeep : Json.readBytes (Fault.readableBody r) w.room.nesting = .error .tooDeep) :
    (b.delete path w).1 = .error .nestedTooDeep := by
  have haccept : accept [200, 404] w.room.nesting r = .error .nestedTooDeep := by
    unfold accept Failure.ofResponse Fault.errorFields
    rw [if_neg (by simpa using hstatus), hdeep]
  have herrand : ((Errand.delete path).run b w).1 = .error .nestedTooDeep := by
    have hrun := (Errand.delete path).run_eq b w
    simp only [Errand.operation, Errand.accepted, hexchange] at hrun
    rw [hrun]
    change ((accept [200, 404] w.room.nesting r).map _).mapError _ = _
    rw [haccept]
    rfl
  unfold delete annotated
  rw [Action.mapFault_bind]
  change (Action.bind ((Errand.delete path).run b) _ w).1 = _
  unfold Action.bind
  rcases hrun : (Errand.delete path).run b w with ⟨e | r, v⟩
  · rw [hrun] at herrand
    cases herrand
    rfl
  · rw [hrun] at herrand
    cases herrand

/-- A deletion is refused with a body of brackets, and its status is not reported. -/
theorem Backend.nested_refusal_unreported :
    (filesBackend.delete "a" (refusing (List.replicate 1500 91))).1 = .error .nestedTooDeep := by
  refine delete_nested (exchange_refusing _) (by decide) ?_
  exact Json.readBytes_brackets (by decide)

end DataLake
