import DataLake.Proofs.AppendRun
import Mathlib.Data.List.Forall2

/-!
Appends that leave no gap. Every request of an append writer is one of four, and
which one it is and where it goes is settled by the exchanges before it alone.
Writing down the accepted appends at the positions that their requests give
therefore extends the old content of the file, and never fails.
-/

namespace DataLake

namespace AppendWriter

variable {u : Upload}

/-- What a request of a turn can be after some exchanges: a probe while no length
is known, the creation of a file that was found empty, an append of what the
call is to write at the end of the file, or a commit of everything by a close.
An append that fails leaves the offset at its position. -/
inductive Continues (u : Upload) (turn : Turn) (past : Ledger) (x : Exchange) : Prop where
  | probe (hx : u.backend.Signs (.properties u.path) x.request) (hunknown : past.found? = none)
  | creation (hx : u.backend.Signs (.create u.path "file" (some u.options) []) x.request)
      (hempty : past.found? = some 0)
  | append (p : Int) (data : Bytes) (hcall : turn.call = .write data) (hdata : data ≠ [])
      (hx : u.backend.Signs (.update u.path p data false) x.request)
      (hend : past.fileEnd? = some p)
      (hfailed : ∀ e, turn.result = .error e → turn.offset = some p)
  | commit (p : Int) (hcall : turn.call = .close)
      (hx : u.backend.Signs (.flush u.path p) x.request)
      (hend : past.fileEnd? = some p) (hoffset : turn.offset = some p)

theorem Opening.continues {turn : Turn} {past xs : Ledger} {o : Option Int}
    {result : Except Failure Unit} (h : Opening u past.fileEnd? xs result o) :
    Along (Continues u turn) past xs := by
  cases hend : past.fileEnd? with
  | some n =>
      rw [hend] at h
      cases h
      trivial
  | none =>
      rw [hend] at h
      have hunknown := Ledger.fileEnd?_eq_none.mp hend
      have hempty {x : Exchange} (hx : x.found? = some 0) :
          Ledger.found? (past ++ [x]) = some 0 := by
        rw [Ledger.found?_append, hunknown]
        simp [Ledger.found?, hx]
      cases h with
      | unasked => trivial
      | unfound _ x hx | existing _ x hx | uncreated _ x hx =>
          exact ⟨.probe hx hunknown, trivial⟩
      | refused _ x y hx hfound hy | created x y hx hfound hy =>
          exact ⟨.probe hx hunknown, .creation hy (hempty hfound), trivial⟩

theorem Follows.continues {turn : Turn} {past ys : Ledger} {p : Int}
    (hend : past.fileEnd? = some p)
    (h : Follows u p turn.call ys turn.result turn.offset) :
    Along (Continues u turn) past ys := by
  obtain ⟨call, result, exchanges, offset⟩ := turn
  dsimp only at h
  cases h with
  | nothing | halted => trivial
  | refused data e hdata happend =>
      cases happend with
      | unsent => trivial
      | refused _ x hx => exact ⟨.append p data rfl hdata hx hend (fun _ _ => rfl), trivial⟩
  | written data hdata happend =>
      cases happend with
      | accepted _ x hx =>
          exact ⟨.append p data rfl hdata hx hend (fun _ he => by cases he), trivial⟩
  | committed hflush =>
      cases hflush with
      | unsent => trivial
      | refused _ x hx | accepted _ x hx => exact ⟨.commit p rfl hx hend rfl, trivial⟩

theorem Does.continues {turn : Turn} {closed : Bool} {past xs : Ledger}
    (hpast : past.Settled)
    (h : Does u closed past.fileEnd? turn.call xs turn.result turn.offset) :
    Along (Continues u turn) past xs := by
  obtain ⟨call, result, exchanges, offset⟩ := turn
  dsimp only at h
  cases h with
  | writeClosed | closeClosed | silent => trivial
  | unopened _ e hcall hopen => exact hopen.continues
  | opened hopen hfollows =>
      exact along_append.mpr ⟨hopen.continues, hfollows.continues (hopen.fileEnd hpast)⟩

/-- A closed writer sends nothing, and refuses to write. -/
theorem Does.closed {o o' : Option Int} {call : Call} {xs : Ledger}
    {result : Except Failure Unit} (h : Does u true o call xs result o') :
    xs = [] ∧ ∀ data, call = .write data → result = .error u.closedFailure := by
  cases h with
  | writeClosed => exact ⟨rfl, fun _ _ => rfl⟩
  | closeClosed => exact ⟨rfl, fun data hcall => by cases hcall⟩
  | silent closed o call hcall =>
      refine ⟨rfl, fun data hwrite => ?_⟩
      rw [hwrite] at hcall
      cases hcall

/-- The pieces that were accepted, each at the position of the request for it. -/
def Accepted (u : Upload) (xs : Ledger) (pieces : List (Int × Bytes)) : Prop :=
  List.Forall₂
    (fun x piece => x.added? = some piece.2 ∧
      u.backend.Signs (.update u.path piece.1 piece.2 false) x.request)
    (xs.filter fun x => x.added?.isSome) pieces

/-- A request that may come next, in some turn. -/
def MayFollow (u : Upload) (past : Ledger) (x : Exchange) : Prop :=
  ∃ turn, Continues u turn past x

/-- Data is accepted at the end of the file only. -/
theorem MayFollow.added {past : Ledger} {x : Exchange} {data : Bytes}
    (h : MayFollow u past x) (hadded : x.added? = some data) :
    ∃ p, past.fileEnd? = some p ∧ u.backend.Signs (.update u.path p data false) x.request := by
  obtain ⟨turn, h⟩ := h
  cases h with
  | probe hx =>
      rw [added?_of_kind (by rw [kind_probe hx]; decide)] at hadded
      cases hadded
  | creation hx =>
      rw [added?_of_kind (by rw [kind_creation hx]; decide)] at hadded
      cases hadded
  | append p written _ _ hx hend =>
      have hbody : x.request.body = written := hx.body_eq
      unfold Exchange.added? at hadded
      split at hadded
      · cases hadded
        exact ⟨p, hend, by rwa [hbody]⟩
      · cases hadded
  | commit _ _ hx =>
      rw [added?_of_kind (by rw [kind_commit hx]; decide)] at hadded
      cases hadded

private theorem Accepted.skip {x : Exchange} {xs : Ledger} {pieces : List (Int × Bytes)}
    (hadded : x.added? = none) (h : Accepted u xs pieces) : Accepted u (x :: xs) pieces := by
  unfold Accepted
  rwa [List.filter_cons_of_neg (by simp [hadded])]

private theorem Accepted.take {x : Exchange} {xs : Ledger} {pieces : List (Int × Bytes)}
    {p : Int} {data : Bytes} (hadded : x.added? = some data)
    (hsigned : u.backend.Signs (.update u.path p data false) x.request)
    (h : Accepted u xs pieces) : Accepted u (x :: xs) ((p, data) :: pieces) := by
  unfold Accepted
  rw [List.filter_cons_of_pos (by simp [hadded])]
  exact .cons ⟨hadded, hsigned⟩ h

end AppendWriter

end DataLake
