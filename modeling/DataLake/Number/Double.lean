import DataLake.Text

/-!
Binary floating-point numbers of 64 bits, as exact values: a finite number is a
natural number times a power of two. Reading a decimal rounds to the nearest
such number, a half to the even mantissa; dropping the fraction is exact.
-/

namespace DataLake

/-- A floating-point number. A finite one has the value `mantissa * 2 ^ exponent`
and a sign that zero has too. -/
inductive Double where
  | notANumber
  | infinite (negative : Bool)
  | finite (negative : Bool) (mantissa : Nat) (exponent : Int)
  deriving DecidableEq, Repr

namespace Double

/-- The least exponent; numbers this small have fewer digits. -/
def minExponent : Int := -1074

def maxExponent : Int := 971

/-- A quotient rounded to the nearest natural number, a half to the even one. -/
def roundDiv (num den : Nat) : Nat :=
  let floor := num / den
  let twice := 2 * (num % den)
  if twice < den then floor
  else if twice > den then floor + 1
  else if floor % 2 = 0 then floor else floor + 1

/-- The fraction `num / den` divided by `2 ^ exponent`, as a fraction. -/
def scaleDown (num den : Nat) (exponent : Int) : Nat × Nat :=
  if exponent < 0 then (num * Nat.pow 2 (-exponent).toNat, den)
  else (num, den * Nat.pow 2 exponent.toNat)

/-- An exponent that leaves `num / den` between `2 ^ 52` and `2 ^ 53`. -/
def exponentOf (num den : Nat) : Int :=
  let guess : Int := (Nat.log2 num : Int) - (Nat.log2 den : Int) - 52
  let (n, d) := scaleDown num den guess
  if n < Nat.pow 2 52 * d then guess - 1 else guess

def nearest (negative : Bool) (num den : Nat) : Double :=
  let exponent := max (exponentOf num den) minExponent
  let (n, d) := scaleDown num den exponent
  let mantissa := roundDiv n d
  let (mantissa, exponent) :=
    if mantissa = Nat.pow 2 53 then (Nat.pow 2 52, exponent + 1) else (mantissa, exponent)
  if maxExponent < exponent then infinite negative else finite negative mantissa exponent

/-- The number nearest to `digits * 10 ^ power`. A value far beyond the range is
settled by its count of digits, so the power of ten is never computed then. -/
def ofDecimal (negative : Bool) (digits : Nat) (power : Int) : Double :=
  let magnitude : Int := (Nat.toDigits 10 digits).length + power
  if digits = 0 then finite negative 0 minExponent
  else if 310 < magnitude then infinite negative
  else if magnitude < -330 then finite negative 0 minExponent
  else if power < 0 then nearest negative digits (Nat.pow 10 (-power).toNat)
  else nearest negative (digits * Nat.pow 10 power.toNat) 1

/-- More digits than any number has that lies halfway between two neighbours. -/
def maxDigits : Nat := 800

/-- Digits and a power of ten that round to the same number. Zeros in front are
left out. Beyond `maxDigits`, it only matters whether a digit is not zero, so one
digit stands for all of them. -/
def shorten (digits : List Nat) (power : Int) : List Nat × Int :=
  let digits := digits.dropWhile (· == 0)
  let tail := digits.drop maxDigits
  if tail.isEmpty then (digits, power)
  else
    (digits.take maxDigits ++ [if tail.all (· == 0) then 0 else 1],
      power + (tail.length - 1 : Nat))

def ofDigits (negative : Bool) (digits : List Nat) (power : Int) : Double :=
  let (digits, power) := shorten digits power
  ofDecimal negative ((Text.ofDigits digits)) power

/-- The integer part of a finite number. -/
def truncate? : Double → Option Int
  | finite negative mantissa exponent =>
      let whole : Nat :=
        if exponent < 0 then mantissa / Nat.pow 2 (-exponent).toNat
        else mantissa * Nat.pow 2 exponent.toNat
      some (if negative then -(whole : Int) else whole)
  | _ => none

/-- Whether the number is zero, of either sign. -/
def isZero : Double → Bool
  | finite _ mantissa _ => mantissa == 0
  | _ => false

end Double

end DataLake
