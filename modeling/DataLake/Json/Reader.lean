import DataLake.Json
import DataLake.Room
import DataLake.Text.Digit
import DataLake.Text.Utf8

/-!
Reading dynamic values from their standard notation. Beyond the standard it
knows the numbers NaN, Infinity and -Infinity, keeps the last of several fields
with one key, and rejects integers with more digits than are ever read. Arrays
and objects may be nested up to a given depth; reading stops where one goes
deeper, whatever comes after it.
-/

namespace DataLake.Json

inductive ReadError where
  /-- The text is not the notation of a value. -/
  | malformed
  /-- Arrays and objects are nested too deep. -/
  | tooDeep
  deriving DecidableEq, Repr

def isSpace (c : CodePoint) : Bool :=
  c = ' ' || c = '\t' || c = '\n' || c = '\r'

def skipSpace (t : Text) : Text :=
  t.dropWhile isSpace

def hexUnit? (a b c d : CodePoint) : Option Nat :=
  match a.hexValue?, b.hexValue?, c.hexValue?, d.hexValue? with
  | some a, some b, some c, some d => some (((a * 16 + b) * 16 + c) * 16 + d)
  | _, _, _, _ => none

def escapeValue? (c : CodePoint) : Option Nat :=
  if c = '\x22' || c = '\\' || c = '/' then some c.toNat
  else if c = 'b' then some 8
  else if c = 'f' then some 12
  else if c = 'n' then some 10
  else if c = 'r' then some 13
  else if c = 't' then some 9
  else none

/-- The code units up to the closing quote, added to those read so far (newest
first), and the text after the quote. -/
def readUnits (units : List Nat) : Text → Option (List Nat × Text)
  | [] => none
  | '\\' :: 'u' :: a :: b :: c :: d :: rest =>
      match hexUnit? a b c d with
      | some unit => readUnits (unit :: units) rest
      | none => none
  | '\\' :: c :: rest =>
      match escapeValue? c with
      | some unit => readUnits (unit :: units) rest
      | none => none
  | c :: rest =>
      if c = '\x22' then some (units.reverse, rest)
      else if c.toNat < 0x20 then none
      else readUnits (c.toNat :: units) rest

/-- The code points of a sequence of code units, added to those found so far
(newest first). Two surrogates in order make one character. -/
def joinUnits (found : Text) : List Nat → Text
  | [] => found.reverse
  | [unit] => (.ofNat unit :: found).reverse
  | high :: low :: rest =>
      if 0xD800 ≤ high && high < 0xDC00 && 0xDC00 ≤ low && low < 0xE000 then
        joinUnits (.ofNat (0x10000 + (high - 0xD800) * 0x400 + (low - 0xDC00)) :: found) rest
      else joinUnits (.ofNat high :: found) (low :: rest)

/-- The string after its opening quote, and the text after its closing quote. -/
def readString (t : Text) : Except ReadError (Text × Text) :=
  match readUnits [] t with
  | some (units, rest) => .ok (joinUnits [] units, rest)
  | none => .error .malformed

def spanDigits (t : Text) : Text × Text :=
  (t.takeWhile CodePoint.isAsciiDigit, t.dropWhile CodePoint.isAsciiDigit)

def digitValues (digits : Text) : List Nat :=
  digits.map fun c => c.toNat - 48

/-- A power of ten beyond the reach of any text that can be read. -/
def farPower : Nat := Nat.pow 10 18

/-- The exponent written by a run of decimal digits; one with too many digits to
matter is as good as any. -/
def exponentValue (digits : Text) : Nat :=
  let digits := digits.dropWhile fun (c : CodePoint) => c == '0'
  if 18 < digits.length then farPower else Text.ofDigits (digitValues digits)

def readFraction (t : Text) : Option Text × Text :=
  match t with
  | '.' :: rest =>
      match spanDigits rest with
      | ([], _) => (none, t)
      | (digits, rest) => (some digits, rest)
  | _ => (none, t)

def readExponent (t : Text) : Option Int × Text :=
  let digitsAfter (negative : Bool) (signed : Text) : Option Int × Text :=
    match spanDigits signed with
    | ([], _) => (none, t)
    | (digits, rest) =>
        let n : Int := exponentValue digits
        (some (if negative then -n else n), rest)
  match t with
  | c :: rest =>
      if c = 'e' || c = 'E' then
        match rest with
        | '-' :: signed => digitsAfter true signed
        | '+' :: signed => digitsAfter false signed
        | signed => digitsAfter false signed
      else (none, t)
  | [] => (none, t)

/-- The number at the front after its sign. A number with a fraction or an
exponent is a floating-point number. -/
def readNumber (negative : Bool) (t : Text) : Option (Json × Text) :=
  let (whole, rest) : Text × Text :=
    match t with
    | '0' :: rest => ("0", rest)
    | _ => spanDigits t
  if whole.isEmpty then none
  else
    match readFraction rest with
    | (fraction, rest) =>
        match readExponent rest with
        | (none, rest) =>
            match fraction with
            | none =>
                if Text.maxIntegerDigits < whole.length then none
                else
                  let n : Int := Text.ofDigits (digitValues whole)
                  some (.integer (if negative then -n else n), rest)
            | some digits =>
                some (.float (.ofDigits negative (digitValues (whole ++ digits))
                  (-(digits.length : Int))), rest)
        | (some power, rest) =>
            let digits := fraction.getD []
            some (.float (.ofDigits negative (digitValues (whole ++ digits))
              (power - digits.length)), rest)

def readWord (t : Text) : Option (Json × Text) :=
  let words : List (Text × Json) :=
    [("null", .null), ("true", .bool true), ("false", .bool false),
      ("NaN", .float .notANumber), ("Infinity", .float (.infinite false)),
      ("-Infinity", .float (.infinite true))]
  words.findSome? fun (word, value) => (word.isPrefixOf? t).map fun rest => (value, rest)

mutual

/-- The value at the front and the text after it. The first argument is the depth
that is left. The second one bounds the steps; each character begins at most one
value and one list of parts, so twice the length of the text is enough. -/
def readValue : Nat → Nat → Text → Except ReadError (Json × Text)
  | _, 0, _ => .error .malformed
  | depth, fuel + 1, t =>
      match t with
      | [] => .error .malformed
      | c :: rest =>
          if c = '\x22' then
            match readString rest with
            | .error e => .error e
            | .ok (s, rest) => .ok (.string s, rest)
          else if c = '[' then
            match depth with
            | 0 => .error .tooDeep
            | depth + 1 =>
                match skipSpace rest with
                | ']' :: rest => .ok (.array [], rest)
                | rest => readItems depth fuel [] rest
          else if c = '\x7b' then
            match depth with
            | 0 => .error .tooDeep
            | depth + 1 =>
                match skipSpace rest with
                | '\x7d' :: rest => .ok (.object [], rest)
                | rest => readFields depth fuel [] rest
          else
            match (readWord t).or
                (if c = '-' then readNumber true rest else readNumber false t) with
            | some found => .ok found
            | none => .error .malformed

/-- The array from an item on to the closing bracket, after the items read so far
(newest first). -/
def readItems : Nat → Nat → List Json → Text → Except ReadError (Json × Text)
  | _, 0, _, _ => .error .malformed
  | depth, fuel + 1, found, t =>
      match readValue depth fuel t with
      | .error e => .error e
      | .ok (item, rest) =>
          match skipSpace rest with
          | ',' :: rest => readItems depth fuel (item :: found) (skipSpace rest)
          | ']' :: rest => .ok (.array (item :: found).reverse, rest)
          | _ => .error .malformed

/-- The object from a key on to the closing brace, after the fields read so far. -/
def readFields : Nat → Nat → List (Text × Json) → Text → Except ReadError (Json × Text)
  | _, 0, _, _ => .error .malformed
  | depth, fuel + 1, found, t =>
      match t with
      | '\x22' :: rest =>
          match readString rest with
          | .error e => .error e
          | .ok (key, rest) =>
              match skipSpace rest with
              | ':' :: rest =>
                  match readValue depth fuel (skipSpace rest) with
                  | .error e => .error e
                  | .ok (value, rest) =>
                      let fields := setField key value found
                      match skipSpace rest with
                      | ',' :: rest => readFields depth fuel fields (skipSpace rest)
                      | '\x7d' :: rest => .ok (.object fields, rest)
                      | _ => .error .malformed
              | _ => .error .malformed
      | _ => .error .malformed

end

/-- The one value that the text holds, with blanks around it. -/
def read (t : Text) (depth : Nat := Room.usual.nesting) : Except ReadError Json :=
  match readValue depth (2 * t.length + 1) (skipSpace t) with
  | .error e => .error e
  | .ok (value, rest) => if (skipSpace rest).isEmpty then .ok value else .error .malformed

def readBytes (bytes : Bytes) (depth : Nat) : Except ReadError Json :=
  match Text.Utf8.decode? bytes with
  | some t => read t depth
  | none => .error .malformed

end DataLake.Json
