import DataLake.Proofs.AppendRun

/-!
Runs of a writer of either kind. Besides single pieces a writer takes the chunks of whole
sources. An open one-shot writer takes them all and sends nothing; an append writer takes
them as a run of writes in which the halt flag may go up.
-/

namespace DataLake

namespace AppendWriter

/-- A call is a turn that does what a call can do. -/
theorem turn_does (t : AppendWriter) (call : Call) (w : World) :
    let (turn, t', w') := t.turn call w
    turn.call = call ∧ w'.exchanges = w.exchanges ++ turn.exchanges ∧
      t' = { t with offset := turn.offset, closed := t.closed || call.ends } ∧
      Does t.upload t.closed t.offset call turn.exchanges turn.result turn.offset := by
  obtain ⟨xs, o, hxs, ht, hdoes⟩ := call.run_does t w
  unfold turn
  rcases hrun : call.run t w with ⟨result, t', w'⟩
  rw [hrun] at hxs ht hdoes
  dsimp only at hxs ht hdoes ⊢
  have hoffset : t'.offset = o := by rw [ht]
  rw [hxs, List.drop_left, hoffset]
  exact ⟨rfl, rfl, ht, hdoes⟩

/-- A write succeeds on an open writer only, and leaves the offset known. -/
theorem Does.write_ok {u : Upload} {closed : Bool} {o o' : Option Int} {data : Bytes} {xs : Ledger}
    (h : Does u closed o (.write data) xs (.ok ()) o') : closed = false ∧ ∃ p, o' = some p := by
  cases h with
  | silent _ _ _ hcall => cases hcall
  | opened hopen hfollows =>
      cases hfollows with
      | nothing => exact ⟨rfl, _, rfl⟩
      | written => exact ⟨rfl, _, rfl⟩

theorem run_append (t : AppendWriter) (first second : List Call) (w : World) :
    t.run (first ++ second) w =
      ((t.run first w).1 ++ ((t.run first w).2.1.run second (t.run first w).2.2).1,
        ((t.run first w).2.1.run second (t.run first w).2.2).2) := by
  induction first generalizing t w with
  | nil => rfl
  | cons call first ih =>
      rcases hturn : t.turn call w with ⟨turn, t', w'⟩
      simp only [List.cons_append, run, hturn, ih t' w']

end AppendWriter

namespace Writer

/-- What may happen to a writer: a call on it, or a halt flag that goes up between two
calls. While a source is written the flag may also go up at a moment of the source. -/
inductive Call where
  | write (data : Bytes)
  | writeFrom (source : Source) (halt : HaltMoment)
  | close
  | abort
  | raise (flag : Text)

namespace Call

def run (call : Call) (t : Writer) : WriterStep Writer := fun w =>
  match call with
  | write data => t.write data w
  | writeFrom source halt => t.writeFromWith source halt w
  | close => t.close w
  | abort => (.ok (), t.abort, w)
  | raise flag => (.ok (), t, w.raise flag)

/-- The pieces that a call hands to the writer. -/
def pieces (call : Call) (t : Writer) (w : World) : List Bytes :=
  match call with
  | write data => [data]
  | writeFrom source halt =>
      (source.chunks t.bufferSize (t.haltMoment halt w) w.room.memory).1
  | close | abort | raise _ => []

/-- Only closing and giving up close a writer. -/
def ends : Call → Bool
  | close | abort => true
  | write _ | writeFrom .. | raise _ => false

end Call

/-- What one call came to: its result, the pieces that the writer was handed, the
exchanges made during it, and the writer after it. -/
structure Turn where
  call : Call
  result : Except Failure Unit
  pieces : List Bytes
  exchanges : Ledger
  writer : Writer

def turn (t : Writer) (call : Call) (w : World) : Turn × World :=
  match call.run t w with
  | (result, t', v) =>
      ({ call, result, pieces := call.pieces t w
         exchanges := v.exchanges.drop w.exchanges.length, writer := t' }, v)

/-- A turn shows how the call left the writer and what it sent. -/
theorem turn_of_run (t : Writer) (call : Call) (w : World) {t' : Writer} {xs : Ledger}
    (hwriter : (call.run t w).2.1 = t')
    (hexchanges : (call.run t w).2.2.exchanges = w.exchanges ++ xs) :
    (t.turn call w).1.writer = t' ∧ (t.turn call w).1.exchanges = xs := by
  refine ⟨hwriter, ?_⟩
  change (call.run t w).2.2.exchanges.drop w.exchanges.length = xs
  rw [hexchanges, List.drop_left]

/-- The turns of a list of calls. -/
def run (t : Writer) : List Call → World → List Turn
  | [], _ => []
  | call :: calls, w =>
      match t.turn call w with
      | (first, w) => first :: first.writer.run calls w

def ledger (turns : List Turn) : Ledger :=
  turns.flatMap Turn.exchanges

@[simp] theorem ledger_append (before after : List Turn) :
    ledger (before ++ after) = ledger before ++ ledger after :=
  List.flatMap_append

@[simp] theorem ledger_singleton (turn : Turn) : ledger [turn] = turn.exchanges := by
  simp [ledger]

@[simp] theorem run_calls (t : Writer) (calls : List Call) (w : World) :
    (t.run calls w).map Turn.call = calls := by
  induction calls generalizing t w with
  | nil => rfl
  | cons call calls ih => exact congrArg (call :: ·) (ih _ _)

theorem exchanges_raiseFlag (t : Writer) (up : Bool) (w : World) :
    (t.raiseFlag up w).exchanges = w.exchanges := by
  unfold raiseFlag
  split
  · split
    · exact w.exchanges_raise _
    · rfl
  · rfl

/-- A writer that takes the chunks of a source is left as by the writes of all of them. -/
theorem writeFromWith_left (t : Writer) (source : Source) (halt : HaltMoment) (w : World) :
    let moment := t.haltMoment halt w
    (t.writeFromWith source halt w).2 =
      (t.writeAll moment 0 (source.chunks t.bufferSize moment w.room.memory).1
        (t.raiseFlag (moment.isUp 0) w)).2 := by
  unfold writeFromWith
  dsimp only
  rcases source.chunks t.bufferSize (t.haltMoment halt w) w.room.memory with ⟨given, ending⟩
  dsimp only
  rcases t.writeAll (t.haltMoment halt w) 0 given
    (t.raiseFlag ((t.haltMoment halt w).isUp 0) w) with ⟨e | _, t', v⟩
  · rfl
  · cases ending <;> rfl

/-- It fails as these writes do, or else as the source does. -/
theorem writeFromWith_result (t : Writer) (source : Source) (halt : HaltMoment) (w : World) :
    let moment := t.haltMoment halt w
    (t.writeFromWith source halt w).1 =
      (t.writeAll moment 0 (source.chunks t.bufferSize moment w.room.memory).1
        (t.raiseFlag (moment.isUp 0) w)).1.bind fun _ =>
          (source.chunks t.bufferSize moment w.room.memory).2.elim (.ok ()) .error := by
  unfold writeFromWith
  dsimp only
  rcases source.chunks t.bufferSize (t.haltMoment halt w) w.room.memory with ⟨given, ending⟩
  dsimp only
  rcases t.writeAll (t.haltMoment halt w) 0 given
    (t.raiseFlag ((t.haltMoment halt w).isUp 0) w) with ⟨e | _, t', v⟩
  · rfl
  · cases ending <;> rfl

theorem raiseFlag_append (t : AppendWriter) (up : Bool) (w : World) :
    ∃ calls : List AppendWriter.Call, (∀ call ∈ calls, call.ends = false) ∧
      (t.run calls w).2 = (t, (append t).raiseFlag up w) := by
  have hnone : (t.run [] w).2 = (t, w) := rfl
  unfold raiseFlag
  split
  · next flag hflag =>
    cases up with
    | true => exact ⟨[.raise flag], by simp [AppendWriter.Call.ends], rfl⟩
    | false => exact ⟨[], by simp, hnone⟩
  · exact ⟨[], by simp, hnone⟩

theorem writeAll_append (t : AppendWriter) (halt : HaltMoment) (taken : Nat)
    (pieces : List Bytes) (w : World) :
    ∃ calls : List AppendWriter.Call, (∀ call ∈ calls, call.ends = false) ∧
      ((append t).writeAll halt taken pieces w).2 =
        (append (t.run calls w).2.1, (t.run calls w).2.2) := by
  induction pieces generalizing t taken w with
  | nil => exact ⟨[], by simp, rfl⟩
  | cons data rest ih =>
      obtain ⟨raising, hraising, hraised⟩ := raiseFlag_append t (halt.isUp (taken + 1)) w
      have hfirst : ∀ call ∈ raising ++ [.write data], call.ends = false := by
        intro call hcall
        rcases List.mem_append.mp hcall with hcall | hcall
        · exact hraising call hcall
        · rw [List.mem_singleton.mp hcall]
          rfl
      have hrun : (t.run (raising ++ [.write data]) w).2 =
          (t.write data ((append t).raiseFlag (halt.isUp (taken + 1)) w)).2 := by
        rw [AppendWriter.run_append, hraised]
        rfl
      unfold writeAll write
      dsimp only
      rcases hw : t.write data ((append t).raiseFlag (halt.isUp (taken + 1)) w) with
        ⟨e | _, t', v⟩
      · refine ⟨raising ++ [.write data], hfirst, ?_⟩
        rw [hrun, hw]
      · obtain ⟨later, hlater, hrest⟩ := ih t' (taken + 1) v
        refine ⟨raising ++ [.write data] ++ later, ?_, ?_⟩
        · intro call hcall
          rcases List.mem_append.mp hcall with hcall | hcall
          · exact hfirst call hcall
          · exact hlater call hcall
        · rw [AppendWriter.run_append, hrun, hw]
          exact hrest

/-- A call on an append writer is a run of its own calls, of which none ends the writer
unless the call does. -/
theorem Call.run_append (call : Call) (t : AppendWriter) (w : World) :
    ∃ calls : List AppendWriter.Call,
      (call.ends = false → ∀ call ∈ calls, call.ends = false) ∧
      (call.run (append t) w).2 = (append (t.run calls w).2.1, (t.run calls w).2.2) := by
  cases call with
  | write data => exact ⟨[.write data], by simp [AppendWriter.Call.ends], rfl⟩
  | writeFrom source halt =>
      let moment := (append t).haltMoment halt w
      obtain ⟨raising, hraising, hraised⟩ := raiseFlag_append t (moment.isUp 0) w
      obtain ⟨writes, hwrites, hwritten⟩ := writeAll_append t moment 0
        (source.chunks (append t).bufferSize moment w.room.memory).1
        ((append t).raiseFlag (moment.isUp 0) w)
      refine ⟨raising ++ writes, fun _ call hcall => ?_, ?_⟩
      · rcases List.mem_append.mp hcall with hcall | hcall
        · exact hraising call hcall
        · exact hwrites call hcall
      · rw [AppendWriter.run_append, hraised]
        exact ((append t).writeFromWith_left source halt w).trans hwritten
  | close => exact ⟨[.close], by simp [Call.ends], rfl⟩
  | abort => exact ⟨[.abort], by simp [Call.ends], rfl⟩
  | raise flag => exact ⟨[.raise flag], by simp [AppendWriter.Call.ends], rfl⟩

end Writer

end DataLake
