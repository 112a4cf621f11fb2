import DataLake.Text

/-!
Base64. Writing fills the last group up with equals signs. Reading is lenient:
characters outside the alphabet are passed over, and what follows a complete
padding is ignored; a group that is neither full nor completely padded is an
error.
-/

namespace DataLake.Base64

def digit (n : Nat) : Char :=
  if n < 26 then Char.ofNat (65 + n)
  else if n < 52 then Char.ofNat (71 + n)
  else if n < 62 then Char.ofNat (n - 4)
  else if n = 62 then '+'
  else '/'

def value? : CodePoint → Option Nat
  | .char c =>
      if 'A' ≤ c && c ≤ 'Z' then some (c.toNat - 65)
      else if 'a' ≤ c && c ≤ 'z' then some (c.toNat - 71)
      else if '0' ≤ c && c ≤ '9' then some (c.toNat + 4)
      else if c = '+' then some 62
      else if c = '/' then some 63
      else none
  | .half _ => none

def encode : Bytes → Text
  | [] => []
  | [a] =>
      let n := a.toNat * 16
      [digit (n / 64), digit (n % 64), '=', '=']
  | [a, b] =>
      let n := (a.toNat * 256 + b.toNat) * 4
      [digit (n / 4096), digit (n / 64 % 64), digit (n % 64), '=']
  | a :: b :: c :: rest =>
      let n := (a.toNat * 256 + b.toNat) * 256 + c.toNat
      digit (n / 262144) :: digit (n / 4096 % 64) :: digit (n / 64 % 64) :: digit (n % 64) ::
        encode rest

/-- The bytes of a group that padding completed: two characters hold one byte,
three hold two. -/
def partialBytes : List Nat → Bytes
  | [a, b] => [UInt8.ofNat (a * 4 + b / 16)]
  | [a, b, c] => [UInt8.ofNat (a * 4 + b / 16), UInt8.ofNat (b % 16 * 16 + c / 4)]
  | _ => []

/-- The bytes of the text from inside a group that holds `group` so far and has
been followed by `pads` equals signs. -/
def decodeFrom (group : List Nat) (pads : Nat) : Text → Option Bytes
  | [] => if group.isEmpty then some [] else none
  | c :: rest =>
      if c = '=' then
        if group.length < 2 then decodeFrom group pads rest
        else if 4 ≤ group.length + (pads + 1) then some (partialBytes group)
        else decodeFrom group (pads + 1) rest
      else
        match value? c with
        | none => decodeFrom group pads rest
        | some n =>
            match group with
            | [x, y, z] =>
                (decodeFrom [] 0 rest).map fun bytes =>
                  UInt8.ofNat (x * 4 + y / 16) :: UInt8.ofNat (y % 16 * 16 + z / 4) ::
                    UInt8.ofNat (z % 4 * 64 + n) :: bytes
            | _ => decodeFrom (group ++ [n]) 0 rest

def decode? (t : Text) : Option Bytes :=
  decodeFrom [] 0 t

end DataLake.Base64
