import DataLake.Proofs.SentUrl

/-!
Plain numbers: the digits from 0 to 9 and nothing beside them, the form of a number in a
header. The text of a natural number is plain and reads back, also after zeros in front of
it. An integer is read from more texts than these, but a negative one never from a plain text.
-/

namespace DataLake.Text

/-- The number that a plain text writes. -/
def plainNumber? (t : Text) : Option Nat :=
  if !t.isEmpty && t.all CodePoint.isAsciiDigit then some (ofDigits (t.map fun c => c.toNat - 0x30))
  else none

theorem isAsciiDigit_of_mem_ofNat {n : Nat} {c : CodePoint} (h : c ∈ ofNat n) :
    c.isAsciiDigit = true := by
  obtain ⟨d, hd, rfl⟩ := List.mem_map.mp h
  exact Nat.isDigit_of_mem_toDigits (by decide) (by decide) hd

/-- The number is read digit by digit as it was written. -/
theorem plainNumber?_ofNat (n : Nat) : plainNumber? (ofNat n) = some n := by
  have hdigits : (ofNat n).all CodePoint.isAsciiDigit = true :=
    List.all_eq_true.mpr fun _ => isAsciiDigit_of_mem_ofNat
  have hsome : (ofNat n).isEmpty = false := List.isEmpty_eq_false_iff.mpr (ofNat_ne_nil n)
  have hvalue : ofDigits ((ofNat n).map fun c => c.toNat - 0x30) =
      Nat.ofDigitChars 10 (Nat.toDigits 10 n) 0 := by
    rw [Nat.ofDigitChars_eq_foldl, ofNat, ofChars, List.map_map, ofDigits, List.foldl_map]
    rfl
  unfold plainNumber?
  rw [hdigits, hsome, hvalue, Nat.ofDigitChars_ten_toDigits]
  rfl

theorem ofNat_injective {m n : Nat} (h : ofNat m = ofNat n) : m = n := by
  have hread : plainNumber? (ofNat m) = plainNumber? (ofNat n) := congrArg plainNumber? h
  rw [plainNumber?_ofNat, plainNumber?_ofNat] at hread
  exact Option.some.inj hread

theorem isAsciiDigit_of_mem_ofNatPadded {width n : Nat} {c : CodePoint}
    (h : c ∈ ofNatPadded width n) : c.isAsciiDigit = true := by
  rcases List.mem_append.mp h with hzero | hdigit
  · rw [List.eq_of_mem_replicate hzero]
    rfl
  · exact isAsciiDigit_of_mem_ofNat hdigit

theorem not_mem_ofNatPadded {c : CodePoint} (hc : c.isAsciiDigit = false) (width n : Nat) :
    c ∉ ofNatPadded width n := fun hmem =>
  Bool.false_ne_true (hc.symm.trans (isAsciiDigit_of_mem_ofNatPadded hmem))

/-- The zeros that a number is filled up with do not count. -/
theorem plainNumber?_ofNatPadded (width n : Nat) : plainNumber? (ofNatPadded width n) = some n := by
  have hzeros (k : Nat) (digits : List Nat) :
      ofDigits (List.replicate k 0 ++ digits) = ofDigits digits := by
    induction k with
    | zero => rfl
    | succ k ih => exact ih
  have hread := plainNumber?_ofNat n
  unfold plainNumber? at hread ⊢
  have hdigits : (ofNatPadded width n).all CodePoint.isAsciiDigit = true :=
    List.all_eq_true.mpr fun _ => isAsciiDigit_of_mem_ofNatPadded
  have hsome : (ofNatPadded width n).isEmpty = false :=
    List.isEmpty_eq_false_iff.mpr (List.append_ne_nil_of_right_ne_nil _ (ofNat_ne_nil n))
  have hvalue : ofDigits ((ofNatPadded width n).map fun c => c.toNat - 0x30) =
      ofDigits ((ofNat n).map fun c => c.toNat - 0x30) := by
    unfold ofNatPadded
    rw [List.map_append, List.map_replicate]
    exact hzeros _ _
  rw [hdigits, hsome, hvalue]
  split at hread
  · exact hread
  · cases hread

theorem length_ofNatPadded {width n : Nat} (hwidth : 0 < width) (hn : n < Nat.pow 10 width) :
    (ofNatPadded width n).length = width := by
  have hlength : (ofNat n).length ≤ width := by
    unfold ofNat ofChars
    rw [List.length_map]
    exact (Nat.length_toDigits_le_iff (by decide) hwidth).mpr hn
  unfold ofNatPadded
  rw [List.length_append, List.length_replicate]
  exact Nat.sub_add_cancel hlength

theorem isBlank_of_isAsciiDigit {c : CodePoint} (h : c.isAsciiDigit = true) : isBlank c = false := by
  have hdigit := c.isAsciiDigit_iff.mp h
  have hranges : ∀ r ∈ blankRanges, r.2 < 0x30 ∨ 0x39 < r.1 := by decide
  unfold isBlank inRanges
  rw [List.any_eq_false]
  intro r hr
  have hapart := hranges r hr
  simp only [Bool.and_eq_true, decide_eq_true_eq]
  omega

theorem isDigit_of_isAsciiDigit {c : CodePoint} (h : c.isAsciiDigit = true) : isDigit c = true := by
  have hrange := c.isAsciiDigit_iff.mp h
  have hfirst : inRanges decimalRanges c = true :=
    List.any_eq_true.mpr ⟨(0x30, 0x39), by decide, by simpa using hrange⟩
  unfold isDigit
  rw [hfirst, Bool.true_or]

/-- There is nothing to trim in a text without characters of the class. -/
theorem trim_of_forall {p : CodePoint → Bool} {t : Text} (h : ∀ c ∈ t, p c = false) :
    trim p t = t := by
  have hkept (u : Text) (hu : ∀ c ∈ u, p c = false) : u.dropWhile p = u := by
    cases u with
    | nil => rfl
    | cons c u => exact List.dropWhile_cons_of_neg (by simp [hu c List.mem_cons_self])
  unfold trim dropEndWhile
  rw [hkept t h, hkept t.reverse fun c hc => h c (List.mem_reverse.mp hc), List.reverse_reverse]

/-- A plain text is read as the number that it writes. -/
theorem readInt?_of_plain {t : Text} {n : Nat} (hplain : plainNumber? t = some n)
    (hlength : t.length ≤ maxIntegerDigits) : readInt? t = some (n : Int) := by
  unfold plainNumber? at hplain
  split at hplain
  · next hdigits =>
    cases hplain
    rw [Bool.and_eq_true, List.all_eq_true] at hdigits
    have hne : t ≠ [] := by simpa using hdigits.1
    have hkept : trim isIntegerBlank t = t := trim_of_forall fun c hc => by
      simp [isIntegerBlank, isBlank_of_isAsciiDigit (hdigits.2 c hc)]
    have hread := readNat?_of_isAsciiDigit hne hdigits.2 hlength
    unfold readInt?
    rw [hkept]
    split
    · exact absurd (hdigits.2 _ List.mem_cons_self) (by decide)
    · exact absurd (hdigits.2 _ List.mem_cons_self) (by decide)
    · rw [hread]
      rfl
  · cases hplain

/-- A number that fits its width is read as it was written. -/
theorem readInt?_ofNatPadded {width n : Nat} (hpositive : 0 < width)
    (hshort : width ≤ maxIntegerDigits) (hn : n < Nat.pow 10 width) :
    readInt? (ofNatPadded width n) = some (n : Int) := by
  apply readInt?_of_plain (plainNumber?_ofNatPadded width n)
  rwa [length_ofNatPadded hpositive hn]

theorem minus_not_mem_of_plain {t : Text} (h : plainNumber? t ≠ none) : .char '-' ∉ t := by
  intro hmem
  apply h
  unfold plainNumber?
  rw [if_neg]
  intro hplain
  rw [Bool.and_eq_true] at hplain
  have hdigit := List.all_eq_true.mp hplain.2 _ hmem
  revert hdigit
  decide

theorem minus_not_mem_ofNat (n : Nat) : .char '-' ∉ ofNat n :=
  minus_not_mem_of_plain (by simp [plainNumber?_ofNat])

/-- A text that begins with a minus sign is not plain. -/
theorem plainNumber?_negSucc (n : Nat) : plainNumber? (ofInt (.negSucc n)) = none := by
  by_contra hplain
  exact minus_not_mem_of_plain hplain List.mem_cons_self

theorem ofInt_ne_nil (n : Int) : ofInt n ≠ [] := by
  cases n with
  | ofNat n => exact ofNat_ne_nil n
  | negSucc n => exact List.cons_ne_nil _ _

theorem ofInt_injective {m n : Int} (h : ofInt m = ofInt n) : m = n := by
  have hsign (m n : Nat) : ofInt (.ofNat m) ≠ ofInt (.negSucc n) := by
    intro heq
    have hmem : .char '-' ∈ ofInt (.negSucc n) := List.mem_cons_self
    rw [← heq] at hmem
    exact minus_not_mem_ofNat m hmem
  cases m with
  | ofNat m =>
      cases n with
      | ofNat n => rw [ofNat_injective h]
      | negSucc n => exact absurd h (hsign m n)
  | negSucc m =>
      cases n with
      | ofNat n => exact absurd h.symm (hsign n m)
      | negSucc n => rw [Nat.succ.inj (ofNat_injective (List.cons.inj h).2)]

/-- A negative number is read from a text with a minus sign only. -/
theorem not_plain_of_readInt?_neg {t : Text} {n : Int} (hread : readInt? t = some n)
    (hneg : n < 0) : plainNumber? t = none := by
  by_contra hplain
  unfold readInt? at hread
  split at hread
  · next digits htrim =>
    have hmem : .char '-' ∈ trim isIntegerBlank t := htrim ▸ List.mem_cons_self
    unfold trim dropEndWhile at hmem
    have hmem := (List.dropWhile_sublist _).subset (List.mem_reverse.mp hmem)
    exact minus_not_mem_of_plain hplain
      ((List.dropWhile_sublist _).subset (List.mem_reverse.mp hmem))
  all_goals
    obtain ⟨digits, _, rfl⟩ := Option.map_eq_some_iff.mp hread
    exact absurd hneg (Int.not_lt.mpr (Int.natCast_nonneg _))

end DataLake.Text
