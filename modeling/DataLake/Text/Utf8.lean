import DataLake.Text

/-!
UTF-8. The decoder takes one byte at a time and reports, in order, each
character and each malformed part. A malformed part is as long as it can be
while it is still the beginning of some character, and at least one byte; the
strict reading rejects it and the lenient one puts U+FFFD in its place.
-/

namespace DataLake.Text.Utf8

/-- The bytes of one code point. Half of a surrogate pair has the three bytes that
its number leads to; no encoding of a text has them. -/
def encodePoint (c : CodePoint) : Bytes :=
  let n := c.toNat
  if n < 0x80 then [UInt8.ofNat n]
  else if n < 0x800 then [UInt8.ofNat (0xC0 + n / 0x40), UInt8.ofNat (0x80 + n % 0x40)]
  else if n < 0x10000 then
    [UInt8.ofNat (0xE0 + n / 0x1000), UInt8.ofNat (0x80 + n / 0x40 % 0x40),
      UInt8.ofNat (0x80 + n % 0x40)]
  else
    [UInt8.ofNat (0xF0 + n / 0x40000), UInt8.ofNat (0x80 + n / 0x1000 % 0x40),
      UInt8.ofNat (0x80 + n / 0x40 % 0x40), UInt8.ofNat (0x80 + n % 0x40)]

/-- The bytes of a text, unless it holds half of a surrogate pair. -/
def encode? (t : Text) : Option Bytes :=
  if t.any CodePoint.isHalf then none else some (t.flatMap encodePoint)

/-- Where the decoder stands between two bytes. -/
inductive Progress where
  /-- Between characters. -/
  | idle
  /-- Inside a character: `left + 1` bytes are owed, `value` holds the bits so
  far, and the next byte must lie from `low` to `high`. -/
  | within (left value low high : Nat)
  deriving DecidableEq, Repr

/-- What a first byte begins: a character of one byte, a longer one, or none. -/
def begin (b : Nat) : List (Option Char) × Progress :=
  if b < 0x80 then ([some (Char.ofNat b)], .idle)
  else if b < 0xC2 then ([none], .idle)
  else if b < 0xE0 then ([], .within 0 (b - 0xC0) 0x80 0xBF)
  else if b = 0xE0 then ([], .within 1 0 0xA0 0xBF)
  else if b = 0xED then ([], .within 1 0xD 0x80 0x9F)
  else if b < 0xF0 then ([], .within 1 (b - 0xE0) 0x80 0xBF)
  else if b = 0xF0 then ([], .within 2 0 0x90 0xBF)
  else if b < 0xF4 then ([], .within 2 (b - 0xF0) 0x80 0xBF)
  else if b = 0xF4 then ([], .within 2 4 0x80 0x8F)
  else ([none], .idle)

/-- What one more byte completes, and where the decoder stands after it. A byte
that cannot go on closes the part before it as malformed and is looked at
again from between characters. -/
def step (p : Progress) (b : Nat) : List (Option Char) × Progress :=
  match p with
  | .idle => begin b
  | .within left value low high =>
      if low ≤ b && b ≤ high then
        let value := value * 0x40 + (b - 0x80)
        match left with
        | 0 => ([some (Char.ofNat value)], .idle)
        | left + 1 => ([], .within left value 0x80 0xBF)
      else
        let (units, next) := begin b
        (none :: units, next)

/-- Puts what one more byte completes in front of the units found so far. -/
def take (found : List (Option Char) × Progress) (b : UInt8) :
    List (Option Char) × Progress :=
  let (units, next) := step found.2 b.toNat
  (units.reverse ++ found.1, next)

/-- The characters of a byte string in order, `none` for each malformed part. -/
def units (bytes : Bytes) : List (Option Char) :=
  let (found, last) := bytes.foldl take ([], .idle)
  match last with
  | .idle => found.reverse
  | .within .. => (none :: found).reverse

def replacement : Char := Char.ofNat 0xFFFD

/-- The text with each malformed part replaced. -/
def decodeLenient (bytes : Bytes) : Text :=
  (units bytes).map fun u => .char (u.getD replacement)

def decode? (bytes : Bytes) : Option Text :=
  let us := units bytes
  if us.all Option.isSome then some (us.filterMap fun u => u.map .char) else none

end DataLake.Text.Utf8
