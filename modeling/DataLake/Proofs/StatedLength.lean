import DataLake.Proofs.ObjectPlan
import DataLake.Proofs.WriterRun

/-!
The length that a probe states. An append writer finds out once where its file ends, from a
header. One that cannot be read ends the call with a fault that names it; nothing further is
sent, and the offset stays unknown.
-/

namespace DataLake

/-- The length of an existing file as the response to a probe states it. -/
def Exchange.statedLength? (x : Exchange) : Option Text :=
  if x.kind = .probe then
    x.response?.bind fun r => if r.status = 200 then r.headers.get? "Content-Length" else none
  else none

theorem Exchange.statedLength?_of_kind {x : Exchange} (h : x.kind ≠ .probe) :
    x.statedLength? = none :=
  if_neg h

/-- What an attempt sends asks for its operation. -/
theorem Attempt.signs {α : Type} {b : Backend} {op : Operation} {value? : Response → Option α}
    {result : Except Failure α} {xs : Ledger} (h : Attempt b op value? result xs) {x : Exchange}
    (hx : x ∈ xs) : b.Signs op x.request := by
  cases h with
  | unsent => cases hx
  | refused _ y hy _ | accepted _ y hy _ =>
      cases List.mem_singleton.mp hx
      exact hy

namespace Upload

variable {u : Upload} {xs ys : Ledger} {result : Except Failure Unit} {offset : Option Int}

/-- The failure over a stated length that cannot be read. -/
def lengthFailure (u : Upload) (value : Text) : Failure :=
  .fault (u.backend.annotate "Writer::offset" u.path { cause := .contentLengthInvalid value })

/-- A call that goes no further than its probe. -/
structure Refuses (u : Upload) (value : Text) (xs : Ledger) (result : Except Failure Unit)
    (offset : Option Int) : Prop where
  result_eq : result = .error (u.lengthFailure value)
  offset_eq : offset = none
  alone : xs.length = 1

/-- What a call sends, its result and the offset after it refuse stated lengths that cannot
be read. -/
def Heeds (u : Upload) (xs : Ledger) (result : Except Failure Unit) (offset : Option Int) : Prop :=
  ∀ x ∈ xs, ∀ value, x.statedLength? = some value → Text.readInt? value = none →
    u.Refuses value xs result offset

/-- After a step that succeeded there is nothing to refuse. -/
theorem Heeds.of_ok (h : u.Heeds xs (.ok ()) offset) (result : Except Failure Unit)
    (offset' : Option Int) : u.Heeds xs result offset' := by
  intro x hx value hstated hread
  cases (h x hx value hstated hread).result_eq

/-- A step that comes after is not taken when something is refused. -/
theorem Heeds.bind (h : u.Heeds xs result offset) (next : Unit → Except Failure Unit) :
    u.Heeds xs (result.bind next) offset := by
  cases result with
  | error e => exact h
  | ok _ => exact h.of_ok _ _

/-- After a step that succeeded, requests that are no probes change nothing. -/
theorem Heeds.after (h : u.Heeds xs (.ok ()) offset) (hys : ∀ y ∈ ys, y.kind ≠ .probe)
    (result : Except Failure Unit) (offset' : Option Int) : u.Heeds (xs ++ ys) result offset' := by
  intro x hx value hstated hread
  rcases List.mem_append.mp hx with hx | hx
  · cases (h x hx value hstated hread).result_eq
  · rw [Exchange.statedLength?_of_kind (hys x hx)] at hstated
    cases hstated

theorem readContentLength_unreadable {headers : Headers} {value : Text}
    (hstated : headers.get? "Content-Length" = some value) (hread : Text.readInt? value = none) :
    readContentLength headers = .error (.ofCause (.contentLengthInvalid value)) := by
  unfold readContentLength
  simp only [hstated, hread]

/-- Asking for the stored size sends one request at most, and fails over a length that cannot
be read. -/
theorem storedSize_refuses (u : Upload) (w : World) : ∃ xs : Ledger,
    (u.storedSize w).2.exchanges = w.exchanges ++ xs ∧
      ∀ x ∈ xs, ∀ value, x.statedLength? = some value → Text.readInt? value = none →
        (u.storedSize w).1 = .error (u.lengthFailure value) ∧ xs = [x] := by
  have hsize : u.storedSize w = Action.bind ((Errand.measure u.path).run u.backend)
      (fun r => Action.mapFault (u.backend.annotate "Writer::offset" u.path)
        (Action.ofExcept (sizeIn r))) w := by
    rw [u.storedSize_eq, Action.mapFault_bind]
    rfl
  rw [hsize]
  have hran := (Errand.measure u.path).run_ran u.backend w
  unfold Action.bind
  generalize (Errand.measure u.path).run u.backend w = out at hran
  cases hran with
  | unsent err w' hpassage => exact ⟨[], hpassage.exchanges_eq, nofun⟩
  | unanswered err x w' hpassage hsigned hnone =>
      refine ⟨[x], hpassage.exchanges_eq, fun y hy value hstated _ => ?_⟩
      rw [List.mem_singleton.mp hy] at hstated
      simp [Exchange.statedLength?, hnone] at hstated
  | refused x r w' hpassage hsigned hresponse hstatus =>
      refine ⟨[x], hpassage.exchanges_eq, fun y hy value hstated _ => ?_⟩
      rw [List.mem_singleton.mp hy] at hstated
      have hother : r.status ∉ ([200, 404] : List Int) := hstatus
      rw [List.mem_cons, not_or] at hother
      simp [Exchange.statedLength?, hresponse, hother.1] at hstated
  | accepted x r w' hpassage hsigned hresponse hstatus =>
      dsimp only
      rw [Action.mapFault_eq]
      refine ⟨[x], hpassage.exchanges_eq, fun y hy value hstated hread => ?_⟩
      rw [List.mem_singleton.mp hy] at hstated ⊢
      unfold Exchange.statedLength? at hstated
      rw [if_pos (AppendWriter.kind_probe hsigned), hresponse, Option.bind_some] at hstated
      split at hstated
      · next hthere =>
        have hsize : sizeIn r = .error (.ofCause (.contentLengthInvalid value)) := by
          unfold sizeIn
          rw [if_neg (by rw [hthere]; decide), readContentLength_unreadable hstated hread]
          rfl
        refine ⟨?_, rfl⟩
        change (sizeIn r).mapError _ = _
        rw [hsize]
        rfl
      · cases hstated

end Upload

namespace AppendWriter

open Upload

/-- Making sure that the offset is known refuses a length that cannot be read. -/
theorem ensureStarted_heeds (t : AppendWriter) (w : World) : ∃ xs : Ledger,
    (t.ensureStarted w).2.2.exchanges = w.exchanges ++ xs ∧
      t.upload.Heeds xs (t.ensureStarted w).1 (t.ensureStarted w).2.1.offset := by
  unfold ensureStarted
  cases hoffset : t.offset with
  | some p => exact ⟨[], (List.append_nil _).symm, nofun⟩
  | none =>
      obtain ⟨xs, hxs, hrefuses⟩ := t.upload.storedSize_refuses w
      dsimp only
      unfold start
      rcases hsize : t.upload.storedSize w with ⟨e | n, v⟩
      · rw [hsize] at hxs hrefuses
        refine ⟨xs, hxs, fun x hx value hstated hread => ?_⟩
        obtain ⟨hresult, halone⟩ := hrefuses x hx value hstated hread
        cases hresult
        exact ⟨rfl, hoffset, by rw [halone]; rfl⟩
      · rw [hsize] at hxs hrefuses
        -- The length was read, so no probe has one that cannot be.
        have hheeds (o : Option Int) : t.upload.Heeds xs (.ok ()) o := by
          intro x hx value hstated hread
          cases (hrefuses x hx value hstated hread).1
        dsimp only
        split
        · obtain ⟨ys, hys, hcreation⟩ := t.upload.create_attempts v
          have hkinds : ∀ y ∈ ys, y.kind ≠ .probe := fun y hy => by
            simp [kind_creation (hcreation.signs hy)]
          rw [hxs, List.append_assoc] at hys
          refine ⟨xs ++ ys, ?_, (hheeds none).after hkinds _ _⟩
          rcases hcreate : t.upload.create v with ⟨e | _, v'⟩
          all_goals
            rw [hcreate] at hys
            exact hys
        · exact ⟨xs, hxs, hheeds _⟩

theorem write_heeds (t : AppendWriter) (data : Bytes) (w : World) : ∃ xs : Ledger,
    (t.write data w).2.2.exchanges = w.exchanges ++ xs ∧
      t.upload.Heeds xs (t.write data w).1 (t.write data w).2.1.offset := by
  obtain ⟨xs, hxs, hheeds⟩ := t.ensureStarted_heeds w
  unfold write
  by_cases hclosed : t.closed = true
  · rw [if_pos hclosed]
    exact ⟨[], (List.append_nil _).symm, nofun⟩
  · rw [if_neg hclosed]
    rcases hstarted : t.ensureStarted w with ⟨e | _, s, v⟩
    · rw [hstarted] at hxs hheeds
      exact ⟨xs, hxs, hheeds⟩
    · rw [hstarted] at hxs hheeds
      dsimp only
      split
      · exact ⟨xs, hxs, hheeds.of_ok _ _⟩
      · next hdata =>
        split
        · exact ⟨xs, hxs, hheeds.of_ok _ _⟩
        · obtain ⟨ys, hys, happend⟩ := s.upload.append_attempts (s.offset.getD 0) data false v
          have hmore : data ≠ [] := by simpa using hdata
          have hkinds : ∀ y ∈ ys, y.kind ≠ .probe := fun y hy => by
            simp [kind_append (happend.signs hy) hmore]
          rw [hxs, List.append_assoc] at hys
          refine ⟨xs ++ ys, ?_, hheeds.after hkinds _ _⟩
          rcases hsent : s.upload.append (s.offset.getD 0) data false v with ⟨e | _, v'⟩
          all_goals
            rw [hsent] at hys
            exact hys

theorem close_heeds (t : AppendWriter) (w : World) : ∃ xs : Ledger,
    (t.close w).2.2.exchanges = w.exchanges ++ xs ∧
      t.upload.Heeds xs (t.close w).1 (t.close w).2.1.offset := by
  obtain ⟨xs, hxs, hheeds⟩ := ({ t with closed := true } : AppendWriter).ensureStarted_heeds w
  unfold close
  by_cases hclosed : t.closed = true
  · rw [if_pos hclosed]
    exact ⟨[], (List.append_nil _).symm, nofun⟩
  · rw [if_neg hclosed]
    rcases hstarted : ({ t with closed := true } : AppendWriter).ensureStarted w with ⟨e | _, s, v⟩
    · rw [hstarted] at hxs hheeds
      exact ⟨xs, hxs, hheeds⟩
    · rw [hstarted] at hxs hheeds
      dsimp only
      obtain ⟨ys, hys, hflush⟩ := s.upload.flush_attempts (s.offset.getD 0) v
      have hkinds : ∀ y ∈ ys, y.kind ≠ .probe := fun y hy => by
        simp [kind_commit (hflush.signs hy)]
      rw [hxs, List.append_assoc] at hys
      refine ⟨xs ++ ys, ?_, hheeds.after hkinds _ _⟩
      rcases hsent : s.upload.flush (s.offset.getD 0) v with ⟨e | _, v'⟩
      all_goals
        rw [hsent] at hys
        exact hys

/-- Once the offset is known it stays so, and there are no more probes. -/
theorem Does.known {u : Upload} {closed : Bool} {p : Int} {o : Option Int} {call : Call}
    {xs : Ledger} {result : Except Failure Unit} (h : Does u closed (some p) call xs result o) :
    (∃ q, o = some q) ∧ ∀ x ∈ xs, x.kind ≠ .probe := by
  cases h with
  | writeClosed | closeClosed | silent => exact ⟨⟨p, rfl⟩, nofun⟩
  | unopened _ _ _ hopen => cases hopen
  | opened hopen hfollows =>
      cases hopen
      refine ⟨⟨_, hfollows.chunks.2⟩, fun x hx => ?_⟩
      rw [hfollows.kinds x hx]
      split <;> decide

theorem run_known {t : AppendWriter} {p : Int} (hoffset : t.offset = some p) (calls : List Call)
    (w : World) : ∃ ys : Ledger, (t.run calls w).2.2.exchanges = w.exchanges ++ ys ∧
      ∀ y ∈ ys, y.kind ≠ .probe := by
  induction calls generalizing t p w with
  | nil => exact ⟨[], (List.append_nil _).symm, nofun⟩
  | cons call calls ih =>
      have hdone := t.turn_does call w
      unfold run
      rcases hturn : t.turn call w with ⟨turn, t', v⟩
      rw [hturn] at hdone
      obtain ⟨-, hexchanges, ht, hdoes⟩ := hdone
      rw [hoffset] at hdoes
      obtain ⟨⟨q, hq⟩, hfirst⟩ := hdoes.known
      obtain ⟨ys, hrest, hkinds⟩ := ih (t := t') (by rw [ht, hq]) v
      refine ⟨turn.exchanges ++ ys, ?_, fun y hy => ?_⟩
      · rw [← List.append_assoc, ← hexchanges]
        exact hrest
      · exact (List.mem_append.mp hy).elim (hfirst y) (hkinds y)

end AppendWriter

namespace Writer

open Upload

/-- The offset of an append writer; a one-shot writer has none. -/
def offset? : Writer → Option Int
  | oneShot _ => none
  | append t => t.offset

theorem writeAll_heeds (t : AppendWriter) (halt : HaltMoment) (taken : Nat) (pieces : List Bytes)
    (w : World) : ∃ xs : Ledger,
    ((append t).writeAll halt taken pieces w).2.2.exchanges = w.exchanges ++ xs ∧
      t.upload.Heeds xs ((append t).writeAll halt taken pieces w).1
        ((append t).writeAll halt taken pieces w).2.1.offset? := by
  cases pieces with
  | nil => exact ⟨[], (List.append_nil _).symm, nofun⟩
  | cons data rest =>
      obtain ⟨xs, hxs, hheeds⟩ := t.write_heeds data ((append t).raiseFlag (halt.isUp (taken + 1)) w)
      obtain ⟨_, o, _, ht, hdoes⟩ :=
        (AppendWriter.Call.write data).run_does t ((append t).raiseFlag (halt.isUp (taken + 1)) w)
      rw [exchanges_raiseFlag] at hxs
      change (t.write data _).2.1 = _ at ht
      change AppendWriter.Does _ _ _ _ _ (t.write data _).1 o at hdoes
      unfold writeAll write
      dsimp only
      rcases hw : t.write data ((append t).raiseFlag (halt.isUp (taken + 1)) w) with
        ⟨e | _, t', v⟩
      · rw [hw] at hxs hheeds
        exact ⟨xs, hxs, hheeds⟩
      · -- The first piece made the offset known, so the others need no probe.
        rw [hw] at hxs hheeds ht hdoes
        obtain ⟨_, p, rfl⟩ := hdoes.write_ok
        have hknown : t'.offset = some p := by rw [show t' = _ from ht]
        obtain ⟨calls, _, hrun⟩ := writeAll_append t' halt (taken + 1) rest v
        obtain ⟨ys, hys, hkinds⟩ := AppendWriter.run_known hknown calls v
        refine ⟨xs ++ ys, ?_, hheeds.after hkinds _ _⟩
        dsimp only
        rw [hrun]
        dsimp only
        rw [hys, hxs, List.append_assoc]

/-- Every call on an append writer refuses a length that cannot be read. -/
theorem Call.run_heeds (call : Call) (t : AppendWriter) (w : World) : ∃ xs : Ledger,
    (call.run (append t) w).2.2.exchanges = w.exchanges ++ xs ∧
      t.upload.Heeds xs (call.run (append t) w).1 (call.run (append t) w).2.1.offset? := by
  cases call with
  | write data => exact t.write_heeds data w
  | close => exact t.close_heeds w
  | abort => exact ⟨[], (List.append_nil _).symm, nofun⟩
  | raise flag =>
      refine ⟨[], ?_, nofun⟩
      rw [List.append_nil]
      exact w.exchanges_raise flag
  | writeFrom source halt =>
      let moment := (append t).haltMoment halt w
      obtain ⟨xs, hxs, hheeds⟩ := writeAll_heeds t moment 0
        (source.chunks (append t).bufferSize moment w.room.memory).1
        ((append t).raiseFlag (moment.isUp 0) w)
      have hleft := (append t).writeFromWith_left source halt w
      refine ⟨xs, ?_, ?_⟩
      · change ((append t).writeFromWith source halt w).2.2.exchanges = _
        rw [hleft]
        exact hxs.trans (by rw [exchanges_raiseFlag])
      · change t.upload.Heeds xs ((append t).writeFromWith source halt w).1
          ((append t).writeFromWith source halt w).2.1.offset?
        rw [hleft, (append t).writeFromWith_result source halt w]
        exact hheeds.bind _

end Writer

end DataLake
