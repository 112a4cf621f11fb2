/-!
Code points. A text of a service answer or of a configuration can hold half of a
surrogate pair without its other half, which is no character and has no encoding.
Such halves stand among the characters: they are compared, cut and joined like
them, and belong to no class of characters. A code point is known by its number.
-/

namespace DataLake

/-- A character, or half of a surrogate pair, counted from the first of them. -/
inductive CodePoint where
  | char (c : Char)
  | half (n : Fin 0x800)
  deriving DecidableEq, Repr

instance : Coe Char CodePoint := ⟨.char⟩

instance : Inhabited CodePoint := ⟨.char ' '⟩

namespace CodePoint

def toNat : CodePoint → Nat
  | char c => c.toNat
  | half n => 0xD800 + n

/-- The code point of a number. A number beyond all of them counts as zero. -/
def ofNat (n : Nat) : CodePoint :=
  if h : 0xD800 ≤ n ∧ n < 0xE000 then half ⟨n - 0xD800, by omega⟩ else char (Char.ofNat n)

@[simp] theorem ofNat_toNat (c : CodePoint) : ofNat c.toNat = c := by
  cases c with
  | char c =>
    have outside : ¬ (0xD800 ≤ c.toNat ∧ c.toNat < 0xE000) := by
      have valid := c.valid
      simp only [UInt32.isValidChar, Nat.isValidChar, Char.toNat] at valid ⊢
      omega
    simp [ofNat, toNat, outside]
  | half n =>
    have inside : 0xD800 ≤ 0xD800 + n.val ∧ 0xD800 + n.val < 0xE000 := by omega
    simp [ofNat, toNat, inside]

/-- Below the end of all code points each number has its own. -/
theorem toNat_ofNat {n : Nat} (h : n < 0x110000) : (ofNat n).toNat = n := by
  unfold ofNat
  split
  · next hhalf =>
    change 0xD800 + (n - 0xD800) = n
    omega
  · next hchar =>
    have hvalid : n.isValidChar := by
      unfold Nat.isValidChar
      omega
    unfold Char.ofNat
    rw [dif_pos hvalid]
    rfl

/-- A number belongs to one code point only. -/
theorem toNat_inj {a b : CodePoint} : a.toNat = b.toNat ↔ a = b :=
  ⟨fun h => by rw [← ofNat_toNat a, h, ofNat_toNat], congrArg toNat⟩

def isHalf : CodePoint → Bool
  | char _ => false
  | half _ => true

def isAscii (c : CodePoint) : Bool :=
  c.toNat < 0x80

def isAsciiDigit : CodePoint → Bool
  | char c => c.isDigit
  | half _ => false

theorem isAsciiDigit_iff (c : CodePoint) :
    c.isAsciiDigit = true ↔ 0x30 ≤ c.toNat ∧ c.toNat ≤ 0x39 := by
  cases c with
  | char c =>
    simp only [isAsciiDigit, Char.isDigit, toNat, Bool.and_eq_true, decide_eq_true_eq]
    exact Iff.rfl
  | half n =>
    apply iff_of_false (by simp [isAsciiDigit])
    simp only [toNat]
    omega

def isAsciiLetter : CodePoint → Bool
  | char c => c.isAlpha
  | half _ => false

def isAsciiAlphanum (c : CodePoint) : Bool :=
  c.isAsciiLetter || c.isAsciiDigit

def asciiLower : CodePoint → CodePoint
  | char c => char c.toLower
  | half n => half n

def asciiUpper : CodePoint → CodePoint
  | char c => char c.toUpper
  | half n => half n

/-- The value of a hexadecimal digit of either case. -/
def hexValue? : CodePoint → Option Nat
  | char c =>
      if '0' ≤ c && c ≤ '9' then some (c.toNat - 48)
      else if 'a' ≤ c && c ≤ 'f' then some (c.toNat - 87)
      else if 'A' ≤ c && c ≤ 'F' then some (c.toNat - 55)
      else none
  | half _ => none

end CodePoint

end DataLake
