import DataLake.Proofs.Along
import DataLake.Proofs.AppendTurn

/-!
Runs of an append writer. The offset of a writer is a function of its ledger:
the length that was found, and the length of all that was accepted. With that,
what one turn can do carries over to every turn of every run, and the rest of
the theory of append writers needs no induction over calls.
-/

namespace DataLake

namespace Ledger

@[simp] theorem chunks_nil : Ledger.chunks [] = [] := rfl

theorem found?_append (xs ys : Ledger) :
    Ledger.found? (xs ++ ys) = (Ledger.found? xs).or (Ledger.found? ys) :=
  List.findSome?_append

@[simp] theorem chunks_append (xs ys : Ledger) :
    Ledger.chunks (xs ++ ys) = Ledger.chunks xs ++ Ledger.chunks ys :=
  List.filterMap_append

theorem chunks_cons_of_none {x : Exchange} (h : x.added? = none) (xs : Ledger) :
    Ledger.chunks (x :: xs) = Ledger.chunks xs :=
  List.filterMap_cons_none h

theorem fileEnd?_eq_none {xs : Ledger} : xs.fileEnd? = none ↔ xs.found? = none :=
  Option.map_eq_none_iff

/-- Nothing is accepted before the length is found. -/
def Settled (xs : Ledger) : Prop :=
  xs.found? = none → xs.chunks = []

/-- Exchanges after the length was found move the end of the file by what was
accepted in them. -/
theorem fileEnd?_append_of_known {xs : Ledger} {n : Int} (h : xs.fileEnd? = some n)
    (ys : Ledger) : fileEnd? (xs ++ ys) = some (n + ys.chunks.flatten.length) := by
  obtain ⟨found, hfound, rfl⟩ := Option.map_eq_some_iff.mp h
  unfold fileEnd?
  rw [found?_append, hfound, Option.some_or, Option.map_some, chunks_append,
    List.flatten_append, List.length_append]
  congr 1
  omega

/-- Nothing is accepted before the length is found, so the end of the file after
the first exchanges is what they found. -/
theorem fileEnd?_append_of_unknown {xs : Ledger} (h : xs.fileEnd? = none)
    (hxs : xs.chunks = []) (ys : Ledger) : fileEnd? (xs ++ ys) = ys.fileEnd? := by
  unfold fileEnd?
  rw [found?_append, fileEnd?_eq_none.mp h, Option.none_or, chunks_append, hxs,
    List.nil_append]

end Ledger

namespace AppendWriter

variable {u : Upload}

theorem added?_of_kind {x : Exchange} (h : x.kind ≠ .append) : x.added? = none := by
  unfold Exchange.added?
  rw [if_neg (fun hx => h hx.1)]

theorem found?_of_kind {x : Exchange} (h : x.kind ≠ .probe) : x.found? = none := by
  unfold Exchange.found?
  rw [if_neg h]

theorem chunks_of_kind {xs : Ledger} (h : ∀ x ∈ xs, x.kind ≠ .append) : xs.chunks = [] :=
  List.filterMap_eq_nil_iff.mpr fun x hx => added?_of_kind (h x hx)

/-- Nothing is appended while the offset is found out. -/
theorem Opening.chunks {o o' : Option Int} {xs : Ledger} {result : Except Failure Unit}
    (h : Opening u o xs result o') : xs.chunks = [] := by
  refine chunks_of_kind fun x hx => ?_
  rcases h.kinds x hx with hkind | hkind <;> simp [hkind]

theorem Opening.found {o : Option Int} {xs : Ledger} {result : Except Failure Unit}
    (h : Opening u none xs result o) : xs.found? = o := by
  cases h with
  | unasked => rfl
  | unfound _ x _ hfound | existing _ x _ hfound | uncreated _ x _ hfound =>
      simp [Ledger.found?, hfound]
  | refused _ x y _ hfound | created x y _ hfound => simp [Ledger.found?, hfound]

/-- Finding out the offset leaves it at the end of the file. -/
theorem Opening.fileEnd {past xs : Ledger} {o : Option Int} {result : Except Failure Unit}
    (hpast : past.Settled)
    (h : Opening u past.fileEnd? xs result o) : Ledger.fileEnd? (past ++ xs) = o := by
  cases hend : past.fileEnd? with
  | some n =>
      rw [hend] at h
      cases h
      rw [List.append_nil, hend]
  | none =>
      rw [hend] at h
      rw [Ledger.fileEnd?_append_of_unknown hend (hpast (Ledger.fileEnd?_eq_none.mp hend))]
      simp [Ledger.fileEnd?, h.found, h.chunks]

/-- The bytes that a call added to the file: those of a write that returned. -/
def taken (call : Call) (result : Except Failure Unit) : List Bytes :=
  match call, result with
  | .write data, .ok _ => if data = [] then [] else [data]
  | _, _ => []

private theorem chunks_of_append {p : Int} {data : Bytes} {ys : Ledger}
    {result : Except Failure Unit} (hdata : data ≠ [])
    (h : Attempt u.backend (.update u.path p data false) (Response.accepted? [200, 202])
      result ys) : ys.chunks = taken (.write data) result := by
  cases h with
  | unsent => rfl
  | refused _ x _ hvalue => simp [Ledger.chunks, Exchange.added?, hvalue, taken]
  | accepted _ x hx hvalue =>
      have hbody : x.request.body = data := hx.body_eq
      simp [Ledger.chunks, Exchange.added?, kind_append hx hdata, hvalue, hbody, taken, hdata]

private theorem chunks_of_flush {p : Int} {ys : Ledger} {result : Except Failure Unit}
    (h : Attempt u.backend (.flush u.path p) (Response.accepted? [200, 201]) result ys) :
    ys.chunks = [] := by
  cases h with
  | unsent => rfl
  | refused _ x hx | accepted _ x hx =>
      simp [Ledger.chunks, added?_of_kind (x := x) (by rw [kind_commit hx]; decide)]

/-- What is accepted during a call are exactly the bytes of a write that returned,
and the offset moves by their length. -/
theorem Follows.chunks {p : Int} {call : Call} {ys : Ledger} {result : Except Failure Unit}
    {o : Option Int} (h : Follows u p call ys result o) :
    ys.chunks = taken call result ∧ o = some (p + ys.chunks.flatten.length) := by
  cases h with
  | nothing => exact ⟨rfl, by simp⟩
  | halted data hdata => exact ⟨rfl, by simp⟩
  | refused data e hdata happend =>
      have hchunks := chunks_of_append hdata happend
      exact ⟨hchunks, by simp [hchunks, taken]⟩
  | written data hdata happend =>
      have hchunks := chunks_of_append hdata happend
      exact ⟨hchunks, by simp [hchunks, taken, hdata]⟩
  | committed hflush =>
      have hchunks := chunks_of_flush hflush
      exact ⟨hchunks, by simp [hchunks]⟩

theorem Does.chunks {closed : Bool} {o o' : Option Int} {call : Call} {xs : Ledger}
    {result : Except Failure Unit} (h : Does u closed o call xs result o') :
    xs.chunks = taken call result := by
  cases h with
  | writeClosed | closeClosed => rfl
  | silent closed o call hcall =>
      cases call with
      | abort | raise => rfl
      | write | close => cases hcall
  | unopened call e hcall hopen =>
      rw [hopen.chunks]
      cases call <;> rfl
  | opened hopen hfollows =>
      rw [Ledger.chunks_append, hopen.chunks, List.nil_append, hfollows.chunks.1]

/-- A call leaves the offset at the end of the file, and accepts nothing before
the length was found. -/
theorem Does.fileEnd {closed : Bool} {past xs : Ledger} {call : Call}
    {result : Except Failure Unit} {o : Option Int}
    (hpast : past.Settled) (h : Does u closed past.fileEnd? call xs result o) :
    Ledger.fileEnd? (past ++ xs) = o ∧ Ledger.Settled (past ++ xs) := by
  cases h with
  | writeClosed | closeClosed | silent =>
      rw [List.append_nil]
      exact ⟨rfl, hpast⟩
  | unopened call e hcall hopen =>
      refine ⟨hopen.fileEnd hpast, fun hfound => ?_⟩
      rw [Ledger.found?_append, Option.or_eq_none_iff] at hfound
      rw [Ledger.chunks_append, hpast hfound.1, hopen.chunks, List.append_nil]
  | @opened _ _ xs ys p _ _ hopen hfollows =>
      have hopened := hopen.fileEnd hpast
      rw [← List.append_assoc]
      refine ⟨?_, fun hfound => ?_⟩
      · rw [Ledger.fileEnd?_append_of_known hopened ys, hfollows.chunks.2]
      · rw [Ledger.found?_append, Option.or_eq_none_iff] at hfound
        rw [Ledger.fileEnd?_eq_none.mpr hfound.1] at hopened
        cases hopened

def opened (u : Upload) (flag : Option Text) (bufferSize : Option Int) : AppendWriter :=
  { upload := u, flag, bufferSize }

/-- A writer after some turns: its offset is where the file ends, and it is closed
after a call that ends it. -/
structure After (u : Upload) (before : List Turn) (t : AppendWriter) : Prop where
  upload_eq : t.upload = u
  offset_eq : t.offset = (ledger before).fileEnd?
  closed_eq : t.closed = before.any fun e => e.call.ends
  settled : (ledger before).Settled

@[simp] theorem ledger_append (before after : List Turn) :
    ledger (before ++ after) = ledger before ++ ledger after :=
  List.flatMap_append

@[simp] theorem ledger_singleton (turn : Turn) : ledger [turn] = turn.exchanges := by
  simp [ledger]

/-- A turn that may come after some others: it does what a call can do on a writer
in which they left their traces. -/
structure Turn.Next (u : Upload) (before : List Turn) (turn : Turn) : Prop where
  settled : (ledger before).Settled
  does : Does u (before.any fun e => e.call.ends) (ledger before).fileEnd? turn.call
    turn.exchanges turn.result turn.offset

/-- One call on a writer after some turns is one more turn. -/
theorem turn_next {before : List Turn} {t : AppendWriter} (h : After u before t) (call : Call)
    (w : World) :
    let (turn, t', w') := t.turn call w
    turn.call = call ∧ w'.exchanges = w.exchanges ++ turn.exchanges ∧ turn.Next u before ∧
      After u (before ++ [turn]) t' := by
  obtain ⟨xs, o, hxs, ht, hdoes⟩ := call.run_does t w
  rw [h.upload_eq, h.offset_eq, h.closed_eq] at hdoes
  unfold turn
  rcases hrun : call.run t w with ⟨result, t', w'⟩
  rw [hrun] at hxs ht hdoes
  dsimp only at hxs ht hdoes ⊢
  have hdropped : w'.exchanges.drop w.exchanges.length = xs := by
    rw [hxs, List.drop_left]
  rw [hdropped]
  have hoffset : t'.offset = o := by rw [ht]
  rw [hoffset]
  obtain ⟨hend, hsettled⟩ := hdoes.fileEnd h.settled
  refine ⟨rfl, hxs, ⟨h.settled, hdoes⟩, ?_, ?_, ?_, ?_⟩
  · rw [ht, h.upload_eq]
  · rw [hoffset, ledger_append, ledger_singleton, hend]
  · rw [ht, h.closed_eq]
    simp
  · rw [ledger_append, ledger_singleton]
    exact hsettled

/-- Every turn of a run may come after the turns before it, the turns hold all
exchanges of the run, and there is one for each call. -/
theorem run_next_from (calls : List Call) {before : List Turn} {t : AppendWriter}
    (h : After u before t) (w : World) :
    let (turns, t', w') := t.run calls w
    turns.map Turn.call = calls ∧ w'.exchanges = w.exchanges ++ ledger turns ∧
      After u (before ++ turns) t' ∧ Along (Turn.Next u) before turns := by
  induction calls generalizing before t w with
  | nil => exact ⟨rfl, (List.append_nil _).symm, by simpa using h, trivial⟩
  | cons call calls ih =>
      have hstep := turn_next h call w
      unfold run
      rcases hturn : t.turn call w with ⟨first, t₁, w₁⟩
      rw [hturn] at hstep
      obtain ⟨hcall, hfirst, hnext, hafter⟩ := hstep
      have hrest := ih hafter w₁
      rcases hrun : t₁.run calls w₁ with ⟨rest, t₂, w₂⟩
      rw [hrun] at hrest
      simp only [hrun]
      obtain ⟨hcalls, hexchanges, hlast, hturns⟩ := hrest
      refine ⟨by simp [hcall, hcalls], ?_, by simpa using hlast, hnext, hturns⟩
      rw [hexchanges, hfirst, List.append_assoc]
      rfl

theorem run_next (u : Upload) (flag : Option Text) (bufferSize : Option Int)
    (calls : List Call) (w : World) :
    let (turns, t, w') := (opened u flag bufferSize).run calls w
    turns.map Turn.call = calls ∧ w'.exchanges = w.exchanges ++ ledger turns ∧
      t.offset = (ledger turns).fileEnd? ∧ Along (Turn.Next u) [] turns := by
  have hopened : After u [] (opened u flag bufferSize) := ⟨rfl, rfl, rfl, fun _ => rfl⟩
  have hrun := run_next_from calls hopened w
  rcases hturns : (opened u flag bufferSize).run calls w with ⟨turns, t, w'⟩
  rw [hturns] at hrun
  obtain ⟨hcalls, hexchanges, hafter, hnext⟩ := hrun
  exact ⟨hcalls, hexchanges, hafter.offset_eq, hnext⟩

end AppendWriter

end DataLake
