import DataLake.Number.Double

/-!
The shortest decimal text of a floating-point number: the fewest digits that
still round to it, and of those the nearest to its value. For each count of
digits only the value's two neighbours on that decimal grid can qualify.
-/

namespace DataLake.Double

/-- A positive finite number as the exact fraction `num / den`, together with
half the distance to its neighbours below and above over the same denominator. -/
structure Neighbourhood where
  num : Nat
  den : Nat
  below : Nat
  above : Nat
  closed : Bool

/-- The reals that round to `mantissa * 2 ^ exponent`. Just above a power of two
the next number below is only half as far away. -/
def neighbourhood (mantissa : Nat) (exponent : Int) : Neighbourhood :=
  let scale : Nat := if exponent < 0 then 1 else Nat.pow 2 exponent.toNat
  let den : Nat := if exponent < 0 then Nat.pow 2 (-exponent).toNat else 1
  let narrow := mantissa = Nat.pow 2 52 && minExponent < exponent
  { num := 4 * mantissa * scale
    den := 4 * den
    below := if narrow then scale else 2 * scale
    above := 2 * scale
    closed := mantissa % 2 = 0 }

def Neighbourhood.contains (n : Neighbourhood) (num den : Nat) : Bool :=
  let low := (n.num - n.below) * den
  let high := (n.num + n.above) * den
  let value := num * n.den
  if n.closed then low ≤ value && value ≤ high else low < value && value < high

def decimalFraction (digits : Nat) (power : Int) : Nat × Nat :=
  if power < 0 then (digits, Nat.pow 10 (-power).toNat)
  else (digits * Nat.pow 10 power.toNat, 1)

/-- The least power of ten that is not below the number, from a start that is
too small, within the given number of steps. -/
def powerAbove (n : Neighbourhood) : Nat → Int → Int
  | 0, power => power
  | steps + 1, power =>
      let (num, den) := decimalFraction 1 power
      if n.num * den < num * n.den then power else powerAbove n steps (power + 1)

/-- The digits, if any, with which the number can be written as a multiple of
`10 ^ power`. -/
def onGrid? (n : Neighbourhood) (power : Int) : Option Nat :=
  let (stepNum, stepDen) := decimalFraction 1 power
  let floor := n.num * stepDen / (n.den * stepNum)
  let fits (digits : Nat) : Bool :=
    let (num, den) := decimalFraction digits power
    n.contains num den
  let twiceRest := 2 * (n.num * stepDen % (n.den * stepNum))
  let upperNearer := n.den * stepNum < twiceRest ||
    (n.den * stepNum == twiceRest && floor % 2 == 1)
  match fits floor, fits (floor + 1) with
  | true, true => some (if upperNearer then floor + 1 else floor)
  | true, false => some floor
  | false, true => some (floor + 1)
  | false, false => none

/-- The digits and the power of ten of the shortest form, trying one more digit
at a time. -/
def shortestFrom (n : Neighbourhood) : Nat → Int → Nat × Int
  | 0, power => (((onGrid? n power).getD 0), power)
  | more + 1, power =>
      match onGrid? n power with
      | some digits => (digits, power)
      | none => shortestFrom n more (power - 1)

/-- Digits without trailing zeros. The first argument bounds their number. -/
def dropZeros : Nat → Nat → Int → Nat × Int
  | 0, digits, power => (digits, power)
  | more + 1, digits, power =>
      if digits % 10 = 0 && digits != 0 then dropZeros more (digits / 10) (power + 1)
      else (digits, power)

/-- The digits of the shortest form, and the place of the decimal point counted
from their left end. -/
def shortest (mantissa : Nat) (exponent : Int) : Text × Int :=
  let n := neighbourhood mantissa exponent
  let start : Int := ((Nat.log2 mantissa : Int) + exponent) * 3 / 10 - 2
  let point := powerAbove n 8 start
  let (digits, power) := shortestFrom n 17 (point - 1)
  let (digits, power) := dropZeros 20 digits power
  let text := Text.ofNat digits
  (text, text.length + power)

/-- Numbers from `10 ^ -4` up to `10 ^ 16` are written out; others have one
digit before the point and an exponent of at least two digits. -/
def layOut (digits : Text) (point : Int) : Text :=
  if -4 < point && point ≤ 16 then
    if point ≤ 0 then
      "0." ++ List.replicate (-point).toNat (CodePoint.char '0') ++ digits
    else if digits.length ≤ point.toNat then
      digits ++ List.replicate (point.toNat - digits.length) (CodePoint.char '0') ++ ".0"
    else digits.take point.toNat ++ .char '.' :: digits.drop point.toNat
  else
    let power := point - 1
    let lead := digits.take 1
    let rest := digits.drop 1
    let mantissa := if rest.isEmpty then lead else lead ++ .char '.' :: rest
    let sign : CodePoint := if power < 0 then '-' else '+'
    mantissa ++ .char 'e' :: sign :: Text.ofNatPadded 2 power.natAbs

def text : Double → Text
  | notANumber => "nan"
  | infinite negative => if negative then "-inf" else "inf"
  | finite negative mantissa exponent =>
      let body : Text :=
        if mantissa = 0 then "0.0"
        else
          let (digits, point) := shortest mantissa exponent
          layOut digits point
      if negative then '-' :: body else body

end DataLake.Double
