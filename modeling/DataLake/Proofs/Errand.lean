import DataLake.Proofs.FaultContext
import DataLake.Proofs.Refusal
import DataLake.Proofs.Tries

/-!
Errands. An errand is one request of an operation: what is asked for, the statuses that
are accepted for it, and what a fault tells of it. There are eleven kinds, and every
request of this library belongs to one of them. Running an errand sends its request once
or not at all, and gives the response exactly if the status is an accepted one.
-/

namespace DataLake

@[simp] theorem Backend.cause_annotate (b : Backend) (operation path : Text) (f : Fault) :
    (b.annotate operation path f).cause = f.cause := by
  simp [annotate]

@[simp] theorem Backend.operation_annotate (b : Backend) (operation path : Text) (f : Fault) :
    (b.annotate operation path f).operation = some operation := by
  simp [annotate]

/-- What an operation is about: its path, and the target if it moves that path. -/
structure Subject where
  path : Text
  target : Option Text := none

namespace Subject

/-- A fault on its way out of an operation on the subject. -/
def mark (s : Subject) (b : Backend) (title : Text) (f : Fault) : Fault :=
  b.annotate title s.path (f.withContext "target" s.target)

end Subject

/-- The fault tells which operation it left, and where that was. -/
structure Fault.Tells (b : Backend) (s : Subject) (f : Fault) : Prop where
  operation : f.operation ≠ none
  service : f.context.get? "service" = some Backend.serviceName
  filesystem : f.context.get? "filesystem" = some b.location.filesystem
  path : f.context.get? "path" = some s.path
  target : ∀ target, s.target = some target → f.context.get? "target" = some target

theorem Subject.mark_tells (s : Subject) (b : Backend) (title : Text) (f : Fault) :
    (s.mark b title f).Tells b s where
  operation := by simp [mark]
  service := by
    unfold mark Backend.annotate
    rw [Fault.get?_withContext_of_ne (by decide), Fault.get?_withContext_of_ne (by decide),
      Fault.get?_withContext_self]
  filesystem := by
    unfold mark Backend.annotate
    rw [Fault.get?_withContext_of_ne (by decide), Fault.get?_withContext_self]
  path := Fault.get?_withContext_self
  target target htarget := by
    -- The target is set first, so each of the texts set after it must leave it alone.
    have hset : (f.withContext "target" s.target).context.get? "target" = some target := by
      rw [htarget]
      exact Fault.get?_withContext_self
    unfold mark Backend.annotate
    rw [Fault.get?_withContext_of_ne (by decide), Fault.get?_withContext_of_ne (by decide),
      Fault.get?_withContext_of_ne (by decide)]
    exact Fault.get?_withOperation_of_some hset

/-- One request of an operation. -/
inductive Errand where
  | makeDirectory (path : Text)
  | inspect (path : Text)
  | read (path : Text) (range : Option ByteRange)
  | delete (path : Text)
  /-- Creates the parent of the target of a move. -/
  | makeParent (source target : Text)
  | move (source target : Text)
  | list (path : Text) (token : Option Text) (limit : Option Int)
  | createFile (path : Text) (options : WriteOptions)
  | append (path : Text) (position : Int) (data : Bytes) (commit : Bool)
  | flush (path : Text) (position : Int)
  /-- Asks a writer's question, how long the stored file is. -/
  | measure (path : Text)

namespace Errand

def operation : Errand → Operation
  | makeDirectory path => Backend.directoryAt path
  | inspect path | measure path => .properties path
  | read path range => .read path range
  | delete path => .delete path
  | makeParent _ target => Backend.directoryAt (Path.parent target)
  | move source target => .rename source target
  | list path token limit => .list path token limit
  | createFile path options => .create path "file" (some options) []
  | append path position data commit => .update path position data commit
  | flush path position => .flush path position

def accepted : Errand → List Int
  | makeDirectory _ | createFile .. => [201, 200]
  | inspect _ => [200]
  | read .. => [200, 206]
  | delete _ | list .. | measure _ => [200, 404]
  | makeParent .. => [201, 409]
  | move .. => [201]
  | append .. => [200, 202]
  | flush .. => [200, 201]

/-- The name under which a fault leaves the operation that the errand belongs to. -/
def title : Errand → String
  | makeDirectory _ => "Backend::create_dir"
  | inspect _ => "Backend::stat"
  | read .. => "Backend::read"
  | delete _ => "Backend::delete"
  | makeParent .. | move .. => "Backend::rename"
  | list .. => "Lister::next_page"
  | createFile .. => "Writer::create_file"
  | append .. => "Writer::append"
  | flush .. => "Writer::flush"
  | measure _ => "Writer::offset"

def subject : Errand → Subject
  | makeParent source target | move source target => { path := source, target := some target }
  | makeDirectory path | inspect path | read path _ | delete path | list path _ _
  | createFile path _ | append path .. | flush path _ | measure path => { path }

/-- A fault of the errand, as it leaves the operation. -/
def mark (e : Errand) (b : Backend) (f : Fault) : Fault :=
  e.subject.mark b e.title f

/-- The errand as a step: its request is sent, and the status is checked. -/
def run (e : Errand) (b : Backend) : Action Response :=
  (b.perform e.operation e.accepted).mapFault (e.mark b)

end Errand

def Failure.mapFault (f : Fault → Fault) : Failure → Failure
  | fault x => .fault (f x)
  | e => e

theorem Action.mapFault_eq {α : Type} (f : Fault → Fault) (x : Action α) (w : World) :
    x.mapFault f w = ((x w).1.mapError (Failure.mapFault f), (x w).2) := by
  unfold mapFault
  rcases x w with ⟨e | a, v⟩
  · cases e <;> rfl
  · rfl

/-- A mark says where a fault came from, and leaves what it is. -/
@[simp] theorem Errand.cause_mark (e : Errand) (b : Backend) (f : Fault) :
    (e.mark b f).cause = f.cause := by
  simp [mark, Subject.mark]

theorem isRefusal_mapFault_mark {e : Errand} {b : Backend} {err : Failure} :
    (err.mapFault (e.mark b)).IsRefusal ↔ err.IsRefusal := by
  cases err with
  | fault f => simp only [Failure.mapFault, Failure.IsRefusal, Errand.cause_mark]
  | _ => exact Iff.rfl

/-- Between two worlds the service was sent exactly the given exchanges, and it took its
answers to them off its list. -/
structure World.Passage (w : World) (xs : List Exchange) (w' : World) : Prop where
  exchanges_eq : w'.exchanges = w.exchanges ++ xs
  answers_eq : w.answers = xs.filterMap Exchange.reply ++ w'.answers
  now_eq : w'.now = w.now
  raised_eq : w'.raised = w.raised
  room_eq : w'.room = w.room

namespace World.Passage

variable {w v u : World} {xs ys : List Exchange}

theorem refl (w : World) : w.Passage [] w :=
  ⟨(List.append_nil _).symm, rfl, rfl, rfl, rfl⟩

theorem trans (h : w.Passage xs v) (h' : v.Passage ys u) : w.Passage (xs ++ ys) u := by
  refine ⟨?_, ?_, h'.now_eq.trans h.now_eq, h'.raised_eq.trans h.raised_eq,
    h'.room_eq.trans h.room_eq⟩
  · rw [h'.exchanges_eq, h.exchanges_eq, List.append_assoc]
  · rw [h.answers_eq, h'.answers_eq, List.filterMap_append, List.append_assoc]

theorem isRaised_eq (h : w.Passage xs v) (flag : Option Text) :
    v.isRaised flag = w.isRaised flag := by
  unfold isRaised
  rw [h.raised_eq]

/-- Once the service has no answers left, it gives none. -/
theorem replies_eq_nil (h : w.Passage xs v) (hnone : w.answers = []) :
    xs.filterMap Exchange.reply = [] ∧ v.answers = [] := by
  have hanswers := h.answers_eq
  rw [hnone] at hanswers
  exact List.append_eq_nil_iff.mp hanswers.symm

end World.Passage

/-- Everything that running an errand can come to. The request may not leave at all; it
may leave without a response coming back; and the status of a response decides the rest. -/
inductive Errand.Ran (e : Errand) (b : Backend) (w : World) :
    Except Failure Response × World → Prop where
  | unsent (err : Failure) (w' : World) (hpassage : w.Passage [] w') (hother : ¬ err.IsRefusal) :
      Ran e b w (.error (err.mapFault (e.mark b)), w')
  | unanswered (err : Failure) (x : Exchange) (w' : World) (hpassage : w.Passage [x] w')
      (hsigned : b.Signs e.operation x.request) (hnone : x.response? = none)
      (hplain : ∀ f, err ≠ .fault f) : Ran e b w (.error err, w')
  | refused (x : Exchange) (r : Response) (w' : World) (hpassage : w.Passage [x] w')
      (hsigned : b.Signs e.operation x.request) (hresponse : x.response? = some r)
      (hstatus : r.status ∉ e.accepted) :
      Ran e b w (.error ((Failure.ofResponse r w.room.nesting).mapFault (e.mark b)), w')
  | accepted (x : Exchange) (r : Response) (w' : World) (hpassage : w.Passage [x] w')
      (hsigned : b.Signs e.operation x.request) (hresponse : x.response? = some r)
      (hstatus : r.status ∈ e.accepted) : Ran e b w (.ok r, w')

theorem Loader.next_noRefusal (l : Loader) (tokens : List TokenAnswer) :
    NoRefusal (l.next tokens).1 := by
  have htoken : NoRefusal (l.nextToken tokens).1 := by
    unfold nextToken
    split
    · exact noRefusal_error.mpr id
    · dsimp only
      split
      · exact noRefusal_ok _
      · exact noRefusal_error.mpr (TokenFailure.toFailure_noRefusal _)
  unfold next
  cases l.login with
  | sharedKey name key => exact noRefusal_ok _
  | token | clientSecret | platform => exact htoken

theorem World.passage_after (w : World) (l : Loader) (tokens : List TokenAnswer) (t : Try)
    (ht : t.exchange? = none) : w.Passage [] (w.after l ⟨w.answers, tokens⟩ [t]) :=
  ⟨by rw [World.exchanges_after, ht]; rfl, rfl, rfl, rfl, rfl⟩

theorem World.passage_sent (w : World) (l : Loader) (tokens : List TokenAnswer) (c : Credential)
    {x : Exchange} (hreply : x.reply = w.answers.head?) :
    w.Passage [x] (w.after l ⟨w.answers.tail, tokens⟩ [.sent c x]) := by
  refine ⟨World.exchanges_after _ _ _ _, ?_, rfl, rfl, rfl⟩
  cases h : w.answers <;> simp [World.after, hreply, h]

theorem Errand.run_eq (e : Errand) (b : Backend) (w : World) :
    e.run b w =
      (((b.exchange e.operation w).1.bind fun r =>
        (accept e.accepted w.room.nesting r).map fun _ => r).mapError (Failure.mapFault (e.mark b)),
        (b.exchange e.operation w).2) := by
  unfold run
  rw [Action.mapFault_eq, b.perform_eq]
  change ((Action.bind (b.exchange e.operation) _ w).1.mapError _,
    (Action.bind (b.exchange e.operation) _ w).2) = _
  unfold Action.bind
  rcases b.exchange e.operation w with ⟨err | r, v⟩ <;> rfl

theorem Errand.run_ran (e : Errand) (b : Backend) (w : World) : e.Ran b w (e.run b w) := by
  rw [e.run_eq]
  have hexchanged := b.exchange_exchanged e.operation w
  generalize b.exchange e.operation w = out at hexchanged
  cases hexchanged with
  | unbuilt err hplain =>
      exact .unsent err w (.refl w) (e.operation.request_noRefusal b.location err hplain)
  | unloaded plain err tokens hplain hload =>
      refine .unsent err _ (w.passage_after _ _ _ rfl) ?_
      exact b.loader.next_noRefusal w.tokens err (by rw [hload])
  | unsigned plain c err tokens hplain hload hsign =>
      exact .unsent err _ (w.passage_after _ _ _ rfl) (Signing.sign_noRefusal _ _ _ _ err hsign)
  | sent plain c x tokens hplain hload hsign hreply =>
      have hpassage := w.passage_sent b.loader tokens c hreply
      have hsigned : b.Signs e.operation x.request := ⟨plain, c, w.now, hplain, hsign⟩
      unfold Exchange.outcome
      cases hx : x.reply with
      | none =>
          exact .unanswered .noAnswer x _ hpassage hsigned (by simp [Exchange.response?, hx])
            (fun f h => by cases h)
      | some answer =>
          cases answer with
          | failure name =>
              exact .unanswered (.connection name) x _ hpassage hsigned
                (by simp [Exchange.response?, hx]) (fun f h => by cases h)
          | response r =>
              have hresponse : x.response? = some r := by simp [Exchange.response?, hx]
              dsimp only [Except.bind]
              by_cases hstatus : r.status ∈ e.accepted
              · have haccept : accept e.accepted w.room.nesting r = .ok () := by
                  simp [accept, hstatus]
                rw [haccept]
                exact .accepted x r _ hpassage hsigned hresponse hstatus
              · have haccept : accept e.accepted w.room.nesting r =
                    .error (.ofResponse r w.room.nesting) := by
                  simp [accept, hstatus]
                rw [haccept]
                exact .refused x r _ hpassage hsigned hresponse hstatus

theorem Errand.run_passage (e : Errand) (b : Backend) (w : World) :
    ∃ xs, w.Passage xs (e.run b w).2 := by
  have hran := e.run_ran b w
  generalize e.run b w = out at hran
  cases hran with
  | unsent err w' hpassage => exact ⟨[], hpassage⟩
  | unanswered err x w' hpassage => exact ⟨[x], hpassage⟩
  | refused x r w' hpassage => exact ⟨[x], hpassage⟩
  | accepted x r w' hpassage => exact ⟨[x], hpassage⟩

end DataLake
