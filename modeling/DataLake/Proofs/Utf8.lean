import DataLake.Text.Utf8

/-!
Reading back what was written in UTF-8. The decoder stands between characters
before and after the bytes of each character, so that it gives back a text of
whole characters as it was, one character at a time.
-/

namespace DataLake.Text.Utf8

private theorem toNat_byte {n : Nat} (h : n < 256) : (UInt8.ofNat n).toNat = n :=
  UInt8.toNat_ofNat_of_lt' h

/-- The first byte of two holds the bits above the last six. -/
private theorem begin_two {n : Nat} (hlow : 0x80 ≤ n) (hhigh : n < 0x800) :
    begin (0xC0 + n / 0x40) = ([], .within 0 (n / 0x40) 0x80 0xBF) := by
  unfold begin
  rw [if_neg (by omega), if_neg (by omega), if_pos (by omega)]
  have hvalue : 0xC0 + n / 0x40 - 0xC0 = n / 0x40 := by omega
  rw [hvalue]

/-- After the first byte of three the next one may lie in a shorter interval, so
that nothing is written too long and no half of a pair is written at all. -/
private theorem begin_three {n : Nat} (hlow : 0x800 ≤ n) (hhigh : n < 0x10000)
    (hwhole : ¬ (0xD800 ≤ n ∧ n < 0xE000)) :
    ∃ low high, begin (0xE0 + n / 0x1000) = ([], .within 1 (n / 0x1000) low high) ∧
      low ≤ 0x80 + n / 0x40 % 0x40 ∧ 0x80 + n / 0x40 % 0x40 ≤ high := by
  unfold begin
  rw [if_neg (by omega), if_neg (by omega), if_neg (by omega)]
  by_cases hfirst : n / 0x1000 = 0
  · rw [if_pos (by omega), hfirst]
    exact ⟨_, _, rfl, by omega, by omega⟩
  · rw [if_neg (by omega)]
    by_cases hpairs : n / 0x1000 = 0xD
    · rw [if_pos (by omega), hpairs]
      exact ⟨_, _, rfl, by omega, by omega⟩
    · rw [if_neg (by omega), if_pos (by omega)]
      have hvalue : 0xE0 + n / 0x1000 - 0xE0 = n / 0x1000 := by omega
      rw [hvalue]
      exact ⟨_, _, rfl, by omega, by omega⟩

private theorem begin_four {n : Nat} (hlow : 0x10000 ≤ n) (hhigh : n < 0x110000) :
    ∃ low high, begin (0xF0 + n / 0x40000) = ([], .within 2 (n / 0x40000) low high) ∧
      low ≤ 0x80 + n / 0x1000 % 0x40 ∧ 0x80 + n / 0x1000 % 0x40 ≤ high := by
  unfold begin
  rw [if_neg (by omega), if_neg (by omega), if_neg (by omega), if_neg (by omega),
    if_neg (by omega), if_neg (by omega)]
  by_cases hfirst : n / 0x40000 = 0
  · rw [if_pos (by omega), hfirst]
    exact ⟨_, _, rfl, by omega, by omega⟩
  · rw [if_neg (by omega)]
    by_cases hlast : n / 0x40000 = 4
    · rw [if_neg (by omega), if_pos (by omega), hlast]
      exact ⟨_, _, rfl, by omega, by omega⟩
    · rw [if_pos (by omega)]
      have hvalue : 0xF0 + n / 0x40000 - 0xF0 = n / 0x40000 := by omega
      rw [hvalue]
      exact ⟨_, _, rfl, by omega, by omega⟩

private theorem step_within {left value low high b : Nat} (hlow : low ≤ b) (hhigh : b ≤ high) :
    step (.within (left + 1) value low high) b =
      ([], .within left (value * 0x40 + (b - 0x80)) 0x80 0xBF) := by
  unfold step
  simp [hlow, hhigh]

private theorem step_last {value low high b : Nat} (hlow : low ≤ b) (hhigh : b ≤ high) :
    step (.within 0 value low high) b =
      ([some (Char.ofNat (value * 0x40 + (b - 0x80)))], .idle) := by
  unfold step
  simp [hlow, hhigh]

private theorem foldl_take_two {n : Nat} (hlow : 0x80 ≤ n) (hhigh : n < 0x800)
    (found : List (Option Char)) :
    [UInt8.ofNat (0xC0 + n / 0x40), UInt8.ofNat (0x80 + n % 0x40)].foldl take (found, .idle) =
      (some (Char.ofNat n) :: found, .idle) := by
  have hfirst : step .idle (0xC0 + n / 0x40) = _ := begin_two hlow hhigh
  have hvalue : n / 0x40 * 0x40 + (0x80 + n % 0x40 - 0x80) = n := by omega
  simp only [List.foldl_cons, List.foldl_nil, take]
  rw [toNat_byte (by omega), toNat_byte (by omega), hfirst]
  simp only
  rw [step_last (by omega) (by omega), hvalue]
  rfl

private theorem foldl_take_three {n : Nat} (hlow : 0x800 ≤ n) (hhigh : n < 0x10000)
    (hwhole : ¬ (0xD800 ≤ n ∧ n < 0xE000)) (found : List (Option Char)) :
    [UInt8.ofNat (0xE0 + n / 0x1000), UInt8.ofNat (0x80 + n / 0x40 % 0x40),
      UInt8.ofNat (0x80 + n % 0x40)].foldl take (found, .idle) =
      (some (Char.ofNat n) :: found, .idle) := by
  obtain ⟨low, high, hbegin, hsecond, hsecond'⟩ := begin_three hlow hhigh hwhole
  have hfirst : step .idle (0xE0 + n / 0x1000) = _ := hbegin
  have hvalue : (n / 0x1000 * 0x40 + (0x80 + n / 0x40 % 0x40 - 0x80)) * 0x40 +
      (0x80 + n % 0x40 - 0x80) = n := by omega
  simp only [List.foldl_cons, List.foldl_nil, take]
  rw [toNat_byte (by omega), toNat_byte (by omega), toNat_byte (by omega), hfirst]
  simp only
  rw [step_within hsecond hsecond']
  simp only
  rw [step_last (by omega) (by omega), hvalue]
  rfl

private theorem foldl_take_four {n : Nat} (hlow : 0x10000 ≤ n) (hhigh : n < 0x110000)
    (found : List (Option Char)) :
    [UInt8.ofNat (0xF0 + n / 0x40000), UInt8.ofNat (0x80 + n / 0x1000 % 0x40),
      UInt8.ofNat (0x80 + n / 0x40 % 0x40), UInt8.ofNat (0x80 + n % 0x40)].foldl take
        (found, .idle) = (some (Char.ofNat n) :: found, .idle) := by
  obtain ⟨low, high, hbegin, hsecond, hsecond'⟩ := begin_four hlow hhigh
  have hfirst : step .idle (0xF0 + n / 0x40000) = _ := hbegin
  have hvalue : ((n / 0x40000 * 0x40 + (0x80 + n / 0x1000 % 0x40 - 0x80)) * 0x40 +
      (0x80 + n / 0x40 % 0x40 - 0x80)) * 0x40 + (0x80 + n % 0x40 - 0x80) = n := by omega
  simp only [List.foldl_cons, List.foldl_nil, take]
  rw [toNat_byte (by omega), toNat_byte (by omega), toNat_byte (by omega),
    toNat_byte (by omega), hfirst]
  simp only
  rw [step_within hsecond hsecond']
  simp only
  rw [step_within (by omega) (by omega)]
  simp only
  rw [step_last (by omega) (by omega), hvalue]
  rfl

/-- The bytes of a character take the decoder from between characters to between
characters, and complete that character. -/
theorem foldl_take_encodePoint (c : Char) (found : List (Option Char)) :
    (encodePoint (.char c)).foldl take (found, .idle) = (some c :: found, .idle) := by
  have hback : Char.ofNat c.toNat = c := Char.ofNat_toNat c
  have hvalid : c.toNat < 0x110000 ∧ ¬ (0xD800 ≤ c.toNat ∧ c.toNat < 0xE000) := by
    have hchar := c.valid
    simp only [UInt32.isValidChar, Nat.isValidChar, Char.toNat] at hchar ⊢
    omega
  unfold encodePoint
  have hn : (CodePoint.char c).toNat = c.toNat := rfl
  rw [hn]
  obtain ⟨n, hn⟩ : ∃ n, c.toNat = n := ⟨_, rfl⟩
  rw [hn] at hback hvalid ⊢
  rw [← hback]
  dsimp only
  split
  · simp only [List.foldl_cons, List.foldl_nil, take]
    rw [toNat_byte (by omega)]
    simp [step, begin, *]
  · split
    · exact foldl_take_two (by omega) (by omega) found
    · split
      · exact foldl_take_three (by omega) (by omega) hvalid.2 found
      · exact foldl_take_four (by omega) hvalid.1 found

theorem foldl_take_encode (cs : List Char) (found : List (Option Char)) :
    ((cs.map CodePoint.char).flatMap encodePoint).foldl take (found, .idle) =
      ((cs.map some).reverse ++ found, .idle) := by
  induction cs generalizing found with
  | nil => rfl
  | cons c cs ih =>
      rw [List.map_cons, List.flatMap_cons, List.foldl_append, foldl_take_encodePoint, ih]
      simp

theorem exists_chars {t : Text} (h : t.any CodePoint.isHalf = false) :
    ∃ cs : List Char, t = cs.map .char := by
  induction t with
  | nil => exact ⟨[], rfl⟩
  | cons c t ih =>
      rw [List.any_cons, Bool.or_eq_false_iff] at h
      obtain ⟨cs, hcs⟩ := ih h.2
      cases c with
      | char c => exact ⟨c :: cs, by rw [hcs, List.map_cons]⟩
      | half n => cases h.1

/-- The lenient reading gives back every text that has an encoding. -/
theorem decodeLenient_encode {t : Text} (h : t.any CodePoint.isHalf = false) :
    decodeLenient (t.flatMap encodePoint) = t := by
  obtain ⟨cs, rfl⟩ := exists_chars h
  unfold decodeLenient units
  rw [foldl_take_encode]
  simp

end DataLake.Text.Utf8
