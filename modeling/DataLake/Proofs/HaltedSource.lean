import DataLake.Proofs.SourceChunks

/-!
Sources that are halted. A flag that goes up once some chunks were taken leaves those as
they are, and the source gives no other one: it ends with the halt unless nothing is left of
it. Only bytes as a whole are given without a look at the flag.
-/

namespace DataLake.Source

variable {memory size : Int} {limit : Nat → Option Nat}

/-- The bytes of a source, however it is read. -/
def bytes : Source → Bytes
  | whole data | file data | readable data _ => data
  | pieces items => items.flatten
  | fileMissing | unusable _ => []

/-- The chunks of a source that are taken by a moment. -/
def taken (source : Source) (bufferSize : Option Int) (memory : Int) (k : Nat) : List Bytes :=
  (source.chunks bufferSize none memory).1.take k

/-- What is left of a source at a moment. -/
def left (source : Source) (bufferSize : Option Int) (memory : Int) (k : Nat) : Bytes :=
  source.bytes.drop (source.taken bufferSize memory k).flatten.length

def IsWhole : Source → Prop
  | whole _ => True
  | file _ | fileMissing | readable _ _ | pieces _ | unusable _ => False

/-- At a moment that comes, the source has given the chunks that were taken by then, and if
anything is left of it, it ends with the halt. -/
structure HaltsAt (source : Source) (bufferSize : Option Int) (memory : Int) (k : Nat) : Prop where
  given : (source.chunks bufferSize (some k) memory).1 = source.taken bufferSize memory k
  ending : k ≤ (source.chunks bufferSize none memory).1.length →
    source.left bufferSize memory k ≠ [] →
    (source.chunks bufferSize (some k) memory).2 = some .halted

theorem isUp_some (k taken : Nat) : HaltMoment.isUp (some k) taken = decide (k ≤ taken) :=
  rfl

theorem iterate_some {α : Type} (k taken : Nat) (items : List α) :
    iterate (some k) taken items = (items.take (k - taken), decide (k - taken < items.length)) := by
  induction items generalizing taken with
  | nil => simp [iterate]
  | cons item items ih =>
      unfold iterate
      rw [isUp_some]
      by_cases hup : k ≤ taken
      · have hnone : k - taken = 0 := by omega
        simp [hup, hnone]
      · obtain ⟨more, hmore⟩ : ∃ more, k - taken = more + 1 := ⟨k - taken - 1, by omega⟩
        have hnext : k - (taken + 1) = more := by omega
        rw [if_neg (by simpa using hup), ih, hmore, hnext]
        simp

/-- What was read before goes ahead of what is read. -/
theorem readAll_found (halt : HaltMoment) (fuel taken : Nat) (found : List Bytes) (rest : Bytes) :
    readAll halt size limit fuel taken found rest =
      (found.reverse ++ (readAll halt size limit fuel taken [] rest).1,
        (readAll halt size limit fuel taken [] rest).2) := by
  induction fuel generalizing taken found rest with
  | zero => simp [readAll]
  | succ fuel ih =>
      unfold readAll
      split
      · simp
      · split
        · simp
        · dsimp only
          split
          · simp
          · rw [ih (taken + 1) (_ :: found), ih (taken + 1) [_]]
            simp

/-- Reads up to a moment are those that would be made without it, and it ends them if it comes
before their end. -/
theorem readAll_some {fuel : Nat} (k taken : Nat) (rest : Bytes) (hk : taken ≤ k)
    (hfuel : rest.length < fuel) :
    readAll (some k) size limit fuel taken [] rest =
      ((readAll none size limit fuel taken [] rest).1.take (k - taken),
        if k ≤ taken + (readAll none size limit fuel taken [] rest).1.length then some .halted
        else (readAll none size limit fuel taken [] rest).2) := by
  induction fuel generalizing taken rest with
  | zero => omega
  | succ fuel ih =>
      have hdown : HaltMoment.isUp none taken = false := rfl
      by_cases hup : k ≤ taken
      · have hnone : k - taken = 0 := by omega
        rw [hnone, List.take_zero, if_pos (Nat.le_add_right_of_le hup)]
        unfold readAll
        rw [isUp_some, if_pos (by simpa using hup)]
        rfl
      · unfold readAll
        rw [hdown, isUp_some, if_neg Bool.false_ne_true, if_neg (by simpa using hup)]
        split
        · simp [hup]
        · dsimp only
          have hread : ((readBound size (limit taken)).elim rest rest.take).length ≤ rest.length := by
            cases readBound size (limit taken) with
            | none => exact Nat.le_refl _
            | some n => exact List.length_take_le' n rest
          generalize (readBound size (limit taken)).elim rest rest.take = chunk at hread ⊢
          split
          · simp [hup]
          · next hchunk =>
            have hlength : 0 < chunk.length := List.length_pos_iff.mpr (by simpa using hchunk)
            obtain ⟨more, hmore⟩ : ∃ more, k - taken = more + 1 := ⟨k - taken - 1, by omega⟩
            have hnext : k - (taken + 1) = more := by omega
            rw [readAll_found (some k), readAll_found none, ih (taken + 1) _ (by omega) ?_, hnext, hmore]
            · simp [Nat.add_assoc, Nat.add_comm 1]
            · rw [List.length_drop]
              omega

theorem readAll_haltsAt (size : Int) (limit : Nat → Option Nat) (k : Nat) (data : Bytes) :
    let reads (halt : HaltMoment) := readAll halt size limit (data.length + 1) 0 [] data
    (reads (some k)).1 = (reads none).1.take k ∧
      (k ≤ (reads none).1.length → (reads (some k)).2 = some .halted) := by
  dsimp only
  rw [readAll_some k 0 data (Nat.zero_le k) (Nat.lt_succ_self _), Nat.zero_add]
  exact ⟨rfl, fun hcomes => if_pos hcomes⟩

/-- Every source notices a moment, but bytes as a whole do not notice one before the start. -/
theorem haltsAt (source : Source) (bufferSize : Option Int) (memory : Int) {k : Nat}
    (h : source.IsWhole → k ≠ 0) : source.HaltsAt bufferSize memory k := by
  cases source with
  | whole data =>
      obtain ⟨more, rfl⟩ := Nat.exists_eq_succ_of_ne_zero (h trivial)
      have hall : (whole data).taken bufferSize memory (more + 1) = [data] := by
        simp [taken, chunks]
      refine ⟨hall.symm, fun _ hleft => absurd ?_ hleft⟩
      rw [left, hall]
      simp [bytes]
  | file data =>
      cases hrefusal : fileRefusal? memory (bufferSize.getD defaultChunkSize) with
      | some e =>
          have hchunks (halt : HaltMoment) : (file data).chunks bufferSize halt memory =
              ([], some (if halt.isUp 0 then .halted else e)) := by
            unfold chunks
            simp only [hrefusal]
          refine ⟨by simp [taken, hchunks], fun hcomes _ => ?_⟩
          rw [hchunks] at hcomes ⊢
          rw [isUp_some, if_pos (by simpa using hcomes)]
      | none =>
          have hchunks (halt : HaltMoment) : (file data).chunks bufferSize halt memory =
              readAll halt (bufferSize.getD defaultChunkSize) (fun _ => none)
                (data.length + 1) 0 [] data := by
            unfold chunks
            simp only [hrefusal]
          obtain ⟨hgiven, hending⟩ :=
            readAll_haltsAt (bufferSize.getD defaultChunkSize) (fun _ => none) k data
          refine ⟨?_, fun hcomes _ => ?_⟩
          · rw [taken, hchunks, hchunks, hgiven]
          · rw [hchunks] at hcomes ⊢
            exact hending hcomes
  | fileMissing =>
      refine ⟨by simp [taken, chunks], fun _ hleft => absurd ?_ hleft⟩
      simp [left, bytes]
  | readable data limit =>
      obtain ⟨hgiven, hending⟩ :=
        readAll_haltsAt (bufferSize.getD defaultChunkSize) limit k data
      exact ⟨hgiven, fun hcomes _ => hending hcomes⟩
  | pieces items =>
      have hall : (pieces items).chunks bufferSize none memory = (items, none) := by
        unfold chunks
        dsimp only
        rw [iterate_all]
        rfl
      have hhalted : (pieces items).chunks bufferSize (some k) memory =
          (items.take k, if k < items.length then some .halted else none) := by
        unfold chunks
        dsimp only
        rw [iterate_some]
        simp
      refine ⟨by rw [taken, hall, hhalted], fun hcomes hleft => ?_⟩
      rw [hall] at hcomes
      rw [hhalted]
      refine if_pos (Nat.lt_of_le_of_ne hcomes fun hend => hleft ?_)
      rw [left, taken, hall, hend, List.take_length]
      exact List.drop_length
  | unusable kind =>
      refine ⟨by simp [taken, chunks], fun _ hleft => absurd ?_ hleft⟩
      simp [left, bytes]

end DataLake.Source
