import DataLake.Text.CodePoint

/-!
Text and bytes. A text is a list of code points and a byte string is a list of
bytes, so every rule of the library is stated on the sequence itself. This
module has the cutting and joining operations that names, URLs, headers and
dates share.
-/

namespace DataLake

/-- A text, code point by code point. -/
abbrev Text := List CodePoint

def Text.ofChars (cs : List Char) : Text :=
  cs.map .char

def Text.ofString (s : String) : Text :=
  Text.ofChars s.toList

instance : Coe String Text := ⟨Text.ofString⟩

abbrev Bytes := List UInt8

namespace Text

/-- The pieces between the occurrences of `sep`. There is always one more
piece than there are separators, so the empty text is one empty piece. -/
def splitOn (sep : CodePoint) : Text → List Text
  | [] => [[]]
  | c :: rest =>
      if c = sep then [] :: splitOn sep rest
      else
        match splitOn sep rest with
        | [] => [[c]]
        | piece :: pieces => (c :: piece) :: pieces

def joinWith (sep : Text) (pieces : List Text) : Text :=
  sep.intercalate pieces

/-- Cuts at the first `sep`: what stands before it, and what stands after it
when it occurs at all. -/
def cutFirst (sep : CodePoint) (t : Text) : Text × Option Text :=
  match t.dropWhile (· != sep) with
  | [] => (t, none)
  | _ :: after => (t.takeWhile (· != sep), some after)

/-- Cuts at the last `sep`: what stands before it when it occurs at all, and
what stands after it. -/
def cutLast (sep : CodePoint) (t : Text) : Option Text × Text :=
  match cutFirst sep t.reverse with
  | (after, none) => (none, after.reverse)
  | (after, some before) => (some before.reverse, after.reverse)

def dropEndWhile (p : CodePoint → Bool) (t : Text) : Text :=
  (t.reverse.dropWhile p).reverse

def trim (p : CodePoint → Bool) (t : Text) : Text :=
  dropEndWhile p (t.dropWhile p)

def endsWith (t tail : Text) : Bool :=
  tail.reverse.isPrefixOf t.reverse

/-- Order by code point; a text comes before its proper extensions. -/
def atMost : Text → Text → Bool
  | [], _ => true
  | _ :: _, [] => false
  | a :: as, b :: bs => a.toNat < b.toNat || (a == b && atMost as bs)

def ofNat (n : Nat) : Text :=
  ofChars (Nat.toDigits 10 n)

def ofInt : Int → Text
  | .ofNat n => ofNat n
  | .negSucc n => '-' :: ofNat (n + 1)

/-- The natural number with the given values of decimal digits. -/
def ofDigits (digits : List Nat) : Nat :=
  digits.foldl (fun n d => 10 * n + d) 0

/-- A natural number in at least `width` digits, filled up with zeros. -/
def ofNatPadded (width n : Nat) : Text :=
  let digits := ofNat n
  List.replicate (width - digits.length) (.char '0') ++ digits

def inRanges (ranges : List (Nat × Nat)) (c : CodePoint) : Bool :=
  ranges.any fun r => r.1 ≤ c.toNat && c.toNat ≤ r.2

end Text

end DataLake
