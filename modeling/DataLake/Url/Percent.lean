import DataLake.Text.Utf8
import DataLake.Text.Quoted

/-!
Percent encoding. Encoding writes every byte of a code point that is not allowed
as two upper-case hexadecimal digits after a percent sign; decoding undoes
every complete escape and leaves all other percent signs alone. The strict form of
encoding refuses half of a surrogate pair, which has no bytes of its own.
-/

namespace DataLake.Url

/-- The characters that never need an escape. -/
def isUnreserved (c : CodePoint) : Bool :=
  c.isAsciiAlphanum || c == '-' || c == '.' || c == '_' || c == '~'

def upperHexDigit (n : Nat) : CodePoint :=
  if n < 10 then .ofNat (48 + n) else .ofNat (55 + n)

def hexPair? (a b : CodePoint) : Option Nat :=
  match a.hexValue?, b.hexValue? with
  | some a, some b => some (16 * a + b)
  | _, _ => none

def escapeByte (b : UInt8) : Text :=
  ['%', upperHexDigit (b.toNat / 16), upperHexDigit (b.toNat % 16)]

def escapePoint (c : CodePoint) : Text :=
  (Text.Utf8.encodePoint c).flatMap escapeByte

/-- The text with every code point escaped that is not allowed. -/
def percentEncode (allowed : CodePoint → Bool) (t : Text) : Text :=
  t.flatMap fun c => if allowed c then [c] else escapePoint c

/-- The text with every code point escaped that is not allowed, unless it holds half
of a surrogate pair. -/
def percentEncode? (allowed : CodePoint → Bool) (t : Text) : Option Text :=
  if t.any CodePoint.isHalf then none else some (percentEncode allowed t)

def upperEscapes : Text → Text
  | '%' :: a :: b :: rest =>
      match hexPair? a b with
      | some _ => '%' :: a.asciiUpper :: b.asciiUpper :: upperEscapes rest
      | none => '%' :: upperEscapes (a :: b :: rest)
  | c :: rest => c :: upperEscapes rest
  | [] => []

/-- Whether an escape of the text stands for a control. -/
def escapesControl : Text → Bool
  | '%' :: a :: b :: rest =>
      match hexPair? a b with
      | some n => n < 0x20 || n == 0x7F || escapesControl rest
      | none => escapesControl (a :: b :: rest)
  | _ :: rest => escapesControl rest
  | [] => false

/-- The bytes of a text whose complete escapes stand for bytes. -/
def percentDecode : Text → Bytes
  | '%' :: a :: b :: rest =>
      match hexPair? a b with
      | some n => UInt8.ofNat n :: percentDecode rest
      | none => Text.Utf8.encodePoint '%' ++ percentDecode (a :: b :: rest)
  | c :: rest => Text.Utf8.encodePoint c ++ percentDecode rest
  | [] => []

/-- The text of an escaped text, malformed parts replaced. Only the stretches of
ASCII are decoded; what stands between them stays. -/
def unescape (t : Text) : Text :=
  (t.splitBy fun a b => a.isAscii == b.isAscii).flatMap fun stretch =>
    if stretch.all CodePoint.isAscii then Text.Utf8.decodeLenient (percentDecode stretch)
    else stretch

/-- A path as part of a URL, unless it holds half of a surrogate pair: slashes stay. -/
def encodePath? (path : Text) : Option Text :=
  percentEncode? (fun c => isUnreserved c || c == '/') path

end DataLake.Url
