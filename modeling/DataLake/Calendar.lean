import DataLake.Text

/-!
The civil calendar, extended to all years. Days are counted from the first of
January of year 1, and times are seconds from the first of January 1970, all in
UTC. A date and time may know how far its clock is ahead of UTC.
-/

namespace DataLake.Calendar

/-- A date and a time of day, with the seconds its clock is ahead of UTC if
they are known. -/
structure DateTime where
  year : Int
  month : Nat
  day : Nat
  hour : Nat
  minute : Nat
  second : Nat
  offset : Option Int
  deriving DecidableEq, Repr

def isLeap (year : Int) : Bool :=
  year % 4 == 0 && (year % 100 != 0 || year % 400 == 0)

def monthLengths (leap : Bool) : List Nat :=
  [31, if leap then 29 else 28, 31, 30, 31, 30, 31, 31, 30, 31, 30, 31]

def daysBeforeYear (year : Int) : Int :=
  let past := year - 1
  365 * past + past / 4 - past / 100 + past / 400

/-- The year of a day. The mean length of a year finds it up to one. -/
def yearOfDay (day : Int) : Int :=
  let guess := day * 400 / 146097 + 1
  if day < daysBeforeYear guess then guess - 1
  else if daysBeforeYear (guess + 1) ≤ day then guess + 1
  else guess

/-- The month and the day of the month, both from 1, of the day so many days
after the first day of the first of the given months. -/
def monthOfDay (first : Nat) : List Nat → Nat → Nat × Nat
  | [], rest => (first, rest + 1)
  | length :: later, rest =>
      if rest < length then (first, rest + 1)
      else monthOfDay (first + 1) later (rest - length)

/-- The day of 1970-01-01. -/
def epochDay : Int := 719162

def DateTime.ofUnix (time : Int) : DateTime :=
  let day := time / 86400 + epochDay
  let second := (time % 86400).toNat
  let year := yearOfDay day
  let (month, dayOfMonth) :=
    monthOfDay 1 (monthLengths (isLeap year)) (day - daysBeforeYear year).toNat
  { year, month, day := dayOfMonth
    hour := second / 3600, minute := second / 60 % 60, second := second % 60
    offset := some 0 }

def DateTime.dayNumber (d : DateTime) : Int :=
  let passed : Nat := ((monthLengths (isLeap d.year)).take (d.month - 1)).foldl (· + ·) 0
  daysBeforeYear d.year + passed + (d.day - 1 : Nat)

/-- The number of seconds from the epoch of a date and time; one without an
offset is taken as UTC. -/
def DateTime.toUnix (d : DateTime) : Int :=
  (d.dayNumber - epochDay) * 86400 + d.hour * 3600 + d.minute * 60 + d.second - d.offset.getD 0

def inRange (year : Int) : Bool :=
  1 ≤ year && year ≤ 9999

def DateTime.isValid (d : DateTime) : Bool :=
  inRange d.year && 1 ≤ d.month && d.month ≤ 12 && 1 ≤ d.day &&
    d.day ≤ (monthLengths (isLeap d.year)).getD (d.month - 1) 0 &&
    d.hour ≤ 23 && d.minute ≤ 59 && d.second ≤ 59

def DateTime.text (d : DateTime) : Text :=
  let two := Text.ofNatPadded 2
  let offset : Text :=
    match d.offset with
    | none => []
    | some seconds =>
        let minutes := seconds.natAbs / 60
        (if seconds < 0 then "-" else "+") ++ two (minutes / 60) ++ ":" ++ two (minutes % 60)
  Text.ofNatPadded 4 d.year.toNat ++ "-" ++ two d.month ++ "-" ++ two d.day ++ "T" ++
    two d.hour ++ ":" ++ two d.minute ++ ":" ++ two d.second ++ offset

end DataLake.Calendar
