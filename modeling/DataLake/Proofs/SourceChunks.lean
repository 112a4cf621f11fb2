import DataLake.Source
import Mathlib.Data.List.Basic

/-!
The chunks of sources. However the data is supplied, the chunks of a source are the data, cut
into pieces. What is read from is cut into reads, of which each but the last one gives
something, and none more than it was asked for.
-/

namespace DataLake

namespace Source

/-- The chunks are the data, cut into pieces that are not empty and no longer than a read. -/
structure Cuts (size : Int) (data : Bytes) (chunks : List Bytes) : Prop where
  whole : chunks.flatten = data
  nonempty : ∀ chunk ∈ chunks, chunk ≠ []
  bounded : ∀ chunk ∈ chunks, (chunk.length : Int) ≤ size

/-- Every read of the size gives something, as long as there is anything left. -/
def Serves (size : Int) (limit : Nat → Option Nat) : Prop :=
  ∀ i, limit i ≠ some 0 ∧ (limit i = none → Number.isWord size = true)

variable {memory size : Int}

/-- A read that gives something takes a positive number of bytes, and no more than its size. -/
private theorem readBound_pos {limit : Option Nat} (hsize : 1 ≤ size) (h : limit ≠ some 0) :
    ∃ n, readBound size limit = some n ∧ 1 ≤ n ∧ (n : Int) ≤ size := by
  unfold readBound
  rw [if_neg (by omega)]
  cases limit with
  | none => exact ⟨size.toNat, rfl, by omega, by omega⟩
  | some m =>
      have hm : m ≠ 0 := fun hzero => h (congrArg some hzero)
      refine ⟨min size.toNat m, rfl, ?_, ?_⟩ <;> omega

theorem readAll_cuts {limit : Nat → Option Nat} (hsize : 1 ≤ size) (hserves : Serves size limit)
    {fuel : Nat} (taken : Nat) (found : List Bytes) (rest : Bytes) (hfuel : rest.length < fuel) :
    ∃ chunks, readAll none size limit fuel taken found rest = (found.reverse ++ chunks, none) ∧
      Cuts size rest chunks := by
  induction fuel generalizing taken found rest with
  | zero => omega
  | succ fuel ih =>
      obtain ⟨hlimit, hword⟩ := hserves taken
      have hallowed : ((limit taken).isNone && !Number.isWord size) = false := by
        cases hl : limit taken with
        | none => simp [hword hl]
        | some m => rfl
      obtain ⟨n, hbound, hpos, hle⟩ := readBound_pos hsize hlimit
      unfold readAll
      rw [if_neg (show ¬ HaltMoment.isUp none taken = true by simp [HaltMoment.isUp]), hallowed,
        if_neg Bool.false_ne_true, hbound]
      dsimp only [Option.elim_some]
      by_cases hrest : rest = []
      · subst hrest
        exact ⟨[], by simp, ⟨rfl, by simp, by simp⟩⟩
      · have hlength : 0 < rest.length := List.length_pos_iff.mpr hrest
        have hchunk : 0 < (rest.take n).length := by
          rw [List.length_take]
          omega
        have hchunkLe : (rest.take n).length ≤ n := List.length_take_le n rest
        have hsplit := List.prefix_iff_eq_append.mp (List.take_prefix n rest)
        generalize rest.take n = chunk at hchunk hchunkLe hsplit
        obtain ⟨chunks, hchunks, hwhole, hnonempty, hbounded⟩ := ih (taken + 1) (chunk :: found)
          (rest.drop chunk.length) (by rw [List.length_drop]; omega)
        refine ⟨chunk :: chunks, ?_, ?_, ?_, ?_⟩
        · rw [if_neg (by simpa using List.length_pos_iff.mp hchunk), hchunks, List.reverse_cons, List.append_assoc]
          rfl
        · rw [List.flatten_cons, hwhole, hsplit]
        · rw [List.forall_mem_cons]
          exact ⟨List.length_pos_iff.mp hchunk, hnonempty⟩
        · rw [List.forall_mem_cons]
          exact ⟨by omega, hbounded⟩

/-- The source supplies the data to reads of the size. What can be read from has to serve them,
and a file makes room for them first. -/
def Supplies (memory size : Int) (data : Bytes) : Source → Prop
  | whole bytes => bytes = data
  | file bytes => bytes = data ∧ fileRefusal? memory size = none
  | readable bytes limit => bytes = data ∧ Serves size limit
  | pieces items => items.flatten = data
  | fileMissing | unusable _ => False

/-- The source is read from, one chunk after another. -/
def IsRead : Source → Prop
  | file _ | readable _ _ => True
  | whole _ | fileMissing | pieces _ | unusable _ => False

theorem iterate_all {α : Type} (taken : Nat) (items : List α) :
    iterate none taken items = (items, false) := by
  induction items generalizing taken with
  | nil => rfl
  | cons item items ih =>
      have hdown : HaltMoment.isUp none taken = false := rfl
      rw [iterate, hdown, if_neg Bool.false_ne_true, ih]

theorem serves_of_file (h : fileRefusal? memory size = none) : Serves size fun _ => none := by
  unfold fileRefusal? at h
  split at h
  · cases h
  · next hword =>
    rw [Bool.or_eq_true, not_or] at hword
    exact fun _ => ⟨by simp, fun _ => by simpa using hword.1⟩

/-- A source that supplies the data gives it in chunks to the end, and one that is read from
cuts it into pieces. -/
theorem chunks_of_supplies {source : Source} {data : Bytes} {bufferSize : Option Int}
    (hsize : ∀ n, bufferSize = some n → 1 ≤ n)
    (h : source.Supplies memory (bufferSize.getD defaultChunkSize) data) :
    ∃ chunks, source.chunks bufferSize none memory = (chunks, none) ∧ chunks.flatten = data ∧
      (source.IsRead → Cuts (bufferSize.getD defaultChunkSize) data chunks) := by
  have hpos : 1 ≤ bufferSize.getD defaultChunkSize := by
    cases bufferSize with
    | none => decide
    | some n => exact hsize n rfl
  cases source with
  | whole bytes =>
      obtain rfl : bytes = data := h
      exact ⟨[bytes], rfl, by simp, fun hread => hread.elim⟩
  | file bytes =>
      obtain ⟨rfl, hroom⟩ := h
      obtain ⟨chunks, hchunks, hcuts⟩ := readAll_cuts hpos (serves_of_file hroom) 0 [] bytes
        (Nat.lt_succ_self _)
      refine ⟨chunks, ?_, hcuts.whole, fun _ => hcuts⟩
      unfold Source.chunks
      dsimp only
      rw [hroom]
      exact hchunks
  | readable bytes limit =>
      obtain ⟨rfl, hserves⟩ := h
      obtain ⟨chunks, hchunks, hcuts⟩ := readAll_cuts hpos hserves 0 [] bytes
        (Nat.lt_succ_self _)
      exact ⟨chunks, hchunks, hcuts.whole, fun _ => hcuts⟩
  | pieces items =>
      refine ⟨items, ?_, h, fun hread => hread.elim⟩
      unfold Source.chunks
      dsimp only
      rw [iterate_all]
      rfl
  | fileMissing => exact h.elim
  | unusable kind => exact h.elim

end Source

end DataLake
