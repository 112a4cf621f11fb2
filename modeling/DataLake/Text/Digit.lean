import DataLake.Text.Blank

/-!
Digits of Unicode 14.0 and integers written with them. Each decimal script has
its ten digits in one run, zero first, so the run's first code point decides
the value. An integer may have blanks around it (the information separators
are not among them), one sign, and single underscores between its digits.
-/

namespace DataLake.Text

/-- The intervals of decimal digits; each is a whole number of runs of ten. -/
def decimalRanges : List (Nat × Nat) :=
  [(0x30, 0x39), (0x660, 0x669), (0x6F0, 0x6F9), (0x7C0, 0x7C9), (0x966, 0x96F), (0x9E6, 0x9EF),
    (0xA66, 0xA6F), (0xAE6, 0xAEF), (0xB66, 0xB6F), (0xBE6, 0xBEF), (0xC66, 0xC6F),
    (0xCE6, 0xCEF), (0xD66, 0xD6F), (0xDE6, 0xDEF), (0xE50, 0xE59), (0xED0, 0xED9),
    (0xF20, 0xF29), (0x1040, 0x1049), (0x1090, 0x1099), (0x17E0, 0x17E9), (0x1810, 0x1819),
    (0x1946, 0x194F), (0x19D0, 0x19D9), (0x1A80, 0x1A89), (0x1A90, 0x1A99), (0x1B50, 0x1B59),
    (0x1BB0, 0x1BB9), (0x1C40, 0x1C49), (0x1C50, 0x1C59), (0xA620, 0xA629), (0xA8D0, 0xA8D9),
    (0xA900, 0xA909), (0xA9D0, 0xA9D9), (0xA9F0, 0xA9F9), (0xAA50, 0xAA59), (0xABF0, 0xABF9),
    (0xFF10, 0xFF19), (0x104A0, 0x104A9), (0x10D30, 0x10D39), (0x11066, 0x1106F),
    (0x110F0, 0x110F9), (0x11136, 0x1113F), (0x111D0, 0x111D9), (0x112F0, 0x112F9),
    (0x11450, 0x11459), (0x114D0, 0x114D9), (0x11650, 0x11659), (0x116C0, 0x116C9),
    (0x11730, 0x11739), (0x118E0, 0x118E9), (0x11950, 0x11959), (0x11C50, 0x11C59),
    (0x11D50, 0x11D59), (0x11DA0, 0x11DA9), (0x16A60, 0x16A69), (0x16AC0, 0x16AC9),
    (0x16B50, 0x16B59), (0x1D7CE, 0x1D7FF), (0x1E140, 0x1E149), (0x1E2F0, 0x1E2F9),
    (0x1E950, 0x1E959), (0x1FBF0, 0x1FBF9)]

/-- The intervals of the other digits, such as superscripts and circled digits. -/
def otherDigitRanges : List (Nat × Nat) :=
  [(0xB2, 0xB3), (0xB9, 0xB9), (0x1369, 0x1371), (0x19DA, 0x19DA), (0x2070, 0x2070),
    (0x2074, 0x2079), (0x2080, 0x2089), (0x2460, 0x2468), (0x2474, 0x247C), (0x2488, 0x2490),
    (0x24EA, 0x24EA), (0x24F5, 0x24FD), (0x24FF, 0x24FF), (0x2776, 0x277E), (0x2780, 0x2788),
    (0x278A, 0x2792), (0x10A40, 0x10A43), (0x10E60, 0x10E68), (0x11052, 0x1105A),
    (0x1F100, 0x1F10A)]

/-- The value of a decimal digit of any script. -/
def digitValue? (c : CodePoint) : Option Nat :=
  (decimalRanges.find? fun r => r.1 ≤ c.toNat && c.toNat ≤ r.2).map
    fun r => (c.toNat - r.1) % 10

/-- Whether the character is a digit of any kind. -/
def isDigit (c : CodePoint) : Bool :=
  inRanges decimalRanges c || inRanges otherDigitRanges c

/-- The most digits an integer may be written with, on reading and on writing. -/
def maxIntegerDigits : Nat := 4300

/-- The values of the digits of `digit (_? digit)*` after the first, in order,
given those read so far (the last one first). -/
private def digitValues? (found : List Nat) : Text → Option (List Nat)
  | [] => some found.reverse
  | '_' :: c :: rest =>
      match digitValue? c with
      | some d => digitValues? (d :: found) rest
      | none => none
  | c :: rest =>
      match digitValue? c with
      | some d => digitValues? (d :: found) rest
      | none => none

/-- The natural number written by the text, which must begin with a digit. -/
def readNat? (t : Text) : Option Nat :=
  match t with
  | [] => none
  | c :: rest =>
      match digitValue? c with
      | none => none
      | some d =>
          match digitValues? [d] rest with
          | some digits =>
              if digits.length ≤ maxIntegerDigits then some (ofDigits digits) else none
          | none => none

theorem digitValue?_of_isAsciiDigit {c : CodePoint} (h : c.isAsciiDigit = true) :
    digitValue? c = some (c.toNat - 0x30) := by
  have hrange := c.isAsciiDigit_iff.mp h
  have hfound : decimalRanges.find? (fun r => r.1 ≤ c.toNat && c.toNat ≤ r.2) = some (0x30, 0x39) :=
    List.find?_cons_of_pos (by simpa using hrange)
  unfold digitValue?
  rw [hfound, Option.map_some, Nat.mod_eq_of_lt (by omega)]

private theorem digitValues?_of_isAsciiDigit {t : Text} (h : ∀ c ∈ t, c.isAsciiDigit = true)
    (found : List Nat) :
    digitValues? found t = some (found.reverse ++ t.map fun c => c.toNat - 0x30) := by
  induction t generalizing found with
  | nil => simp [digitValues?]
  | cons c t ih =>
      obtain ⟨hc, ht⟩ := List.forall_mem_cons.mp h
      have hstep : digitValues? found (c :: t) = digitValues? ((c.toNat - 0x30) :: found) t := by
        rw [digitValues?]
        · simp only [digitValue?_of_isAsciiDigit hc]
        · -- An underscore is no digit.
          rintro _ _ rfl _
          cases hc
      rw [hstep, ih ht]
      simp

/-- Plain digits are read as they are. -/
theorem readNat?_of_isAsciiDigit {t : Text} (hne : t ≠ []) (h : ∀ c ∈ t, c.isAsciiDigit = true)
    (hlength : t.length ≤ maxIntegerDigits) :
    readNat? t = some (ofDigits (t.map fun c => c.toNat - 0x30)) := by
  cases t with
  | nil => exact absurd rfl hne
  | cons c t =>
      obtain ⟨hc, ht⟩ := List.forall_mem_cons.mp h
      have hdigits : [c.toNat - 0x30].reverse ++ t.map (fun c => c.toNat - 0x30) =
          (c :: t).map fun c => c.toNat - 0x30 := rfl
      simp only [readNat?, digitValue?_of_isAsciiDigit hc, digitValues?_of_isAsciiDigit ht, hdigits]
      rw [if_pos (by simpa using hlength)]

def isIntegerBlank (c : CodePoint) : Bool :=
  isBlank c && !(0x1C ≤ c.toNat && c.toNat ≤ 0x1F)

def readInt? (t : Text) : Option Int :=
  match trim isIntegerBlank t with
  | '-' :: digits => (readNat? digits).map fun n => -(n : Int)
  | '+' :: digits => (readNat? digits).map Int.ofNat
  | digits => (readNat? digits).map Int.ofNat

/-- The text of an integer, unless it has too many digits. -/
def writeInt? (n : Int) : Option Text :=
  if (ofNat n.natAbs).length ≤ maxIntegerDigits then some (ofInt n) else none

end DataLake.Text
