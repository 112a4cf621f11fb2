import DataLake.Calendar
import DataLake.Text.Case
import DataLake.Text.Digit

/-!
Dates in message headers. The written form is fixed, for example
`Wed, 21 Oct 2015 07:28:00 GMT`. The reader takes many more: the weekday may
be missing, day and month as well as year and time may be swapped, the fields
of the day may be joined by hyphens, and the zone may be a name, an offset, part
of the time word, or absent.
-/

namespace DataLake.Calendar

def weekdayNames : List Text :=
  ["Mon", "Tue", "Wed", "Thu", "Fri", "Sat", "Sun"]

def monthNames : List Text :=
  ["Jan", "Feb", "Mar", "Apr", "May", "Jun", "Jul", "Aug", "Sep", "Oct", "Nov", "Dec"]

def fullMonthNames : List Text :=
  ["january", "february", "march", "april", "may", "june", "july", "august", "september",
    "october", "november", "december"]

/-- The header form of a date in UTC. -/
def DateTime.headerText (d : DateTime) : Text :=
  let two := Text.ofNatPadded 2
  weekdayNames.getD (d.dayNumber % 7).toNat [] ++ ", " ++ two d.day ++ " " ++
    monthNames.getD (d.month - 1) [] ++ " " ++ Text.ofNatPadded 4 d.year.toNat ++ " " ++
    two d.hour ++ ":" ++ two d.minute ++ ":" ++ two d.second ++ " GMT"

/-- Why no date could be read: the text is not one, or one of its numbers is
beyond what a date can be computed with. -/
inductive DateError where
  | malformed
  | outOfBounds
  deriving DecidableEq, Repr

/-- The number of a month, given its name in lower case. -/
def monthNumber? (name : Text) : Option Nat :=
  match (monthNames.map Text.lower).findIdx? (· == name) with
  | some i => some (i + 1)
  | none => (fullMonthNames.findIdx? (· == name)).map (· + 1)

def zoneHours : List (Text × Int) :=
  [("UT", 0), ("UTC", 0), ("GMT", 0), ("Z", 0), ("AST", -4), ("ADT", -3), ("EST", -5), ("EDT", -4),
    ("CST", -6), ("CDT", -5), ("MST", -7), ("MDT", -6), ("PST", -8), ("PDT", -7)]

/-- The text without one comma at its end. -/
def dropComma (t : Text) : Text :=
  if t.getLast? = some (.char ',') then t.dropLast else t

/-- The words without a weekday at the front. A word that only begins with one
keeps what follows its last comma. -/
def dropWeekday : List Text → List Text
  | [] => []
  | first :: rest =>
      if first.getLast? = some (.char ',') ||
          (weekdayNames.map Text.lower).contains (Text.lower first)
      then rest
      else (Text.cutLast ',' first).2 :: rest

/-- The word cut in front of its sign, if the sign is not the first character. -/
def cutAtSign (word : Text) : List Text :=
  let sign : CodePoint := if word.contains (.char '+') then '+' else '-'
  match word.takeWhile (· != sign) with
  | [] => [word, []]
  | time => if word.contains sign then [time, word.drop time.length] else [word, []]

def dateFields (words : List Text) : Option (Text × Text × Text × Text × Text) :=
  let words := dropWeekday words
  let words :=
    match words with
    | [first, second, third] =>
        match Text.splitOn '-' first with
        | [day, month, year] => [day, month, year, second, third]
        | _ => words
    | _ => words
  let words :=
    match words with
    | [day, month, year, last] => day :: month :: year :: cutAtSign last
    | _ => words
  match words with
  | day :: month :: year :: time :: zone :: _ =>
      if day.isEmpty || month.isEmpty || year.isEmpty then none
      else some (day, month, year, time, zone)
  | _ => none

def timeFields (time : Text) : Option (Text × Text × Text) :=
  match Text.splitOn ':' time with
  | [hour, minute] => some (hour, minute, "0")
  | [hour, minute, second] => some (hour, minute, second)
  | [whole] =>
      match Text.splitOn '.' whole with
      | [hour, minute] => some (hour, minute, "0")
      | [hour, minute, second] => some (hour, minute, second)
      | _ => none
  | _ => none

/-- The seconds ahead of UTC that a zone word stands for. An offset is written
as hours times a hundred plus minutes; zero with a minus sign means that the
offset is unknown. -/
def zoneOffset (zone : Text) : Option Int :=
  let zone := Text.upper zone
  match zoneHours.find? fun z => z.1 == zone with
  | some (_, hours) => some (hours * 3600)
  | none =>
      match Text.readInt? zone with
      | none => none
      | some n =>
          if n = 0 && zone.head? = some (.char '-') then none
          else
            let size : Int := (n.natAbs / 100 * 3600 + n.natAbs % 100 * 60 : Nat)
            some (if n < 0 then -size else size)

/-- A year below 100 lies in the years from 1969 to 2068. -/
def fullYear (year : Int) : Int :=
  if year < 100 then
    if 68 < year then year + 1900 else year + 2000
  else year

/-- The numbers that the fields of a date are computed with. -/
def fitsWord (n : Int) : Bool :=
  -2147483648 ≤ n && n ≤ 2147483647

/-- The date of the given numbers. The offset is looked at first: it has to be
a number of seconds that a span of time can have, and less than a day. -/
def makeDate (year : Int) (month : Nat) (day hour minute second : Int) (offset : Option Int) :
    Except DateError DateTime :=
  let days := (offset.getD 0) / 86400
  if days < -999999999 || 999999999 < days then .error .outOfBounds
  else if !((offset.getD 0).natAbs < 86400) then .error .malformed
  else if !([year, day, hour, minute, second].all fitsWord) then .error .outOfBounds
  else if day < 0 || hour < 0 || minute < 0 || second < 0 then .error .malformed
  else
    let date : DateTime :=
      { year, month, day := day.toNat, hour := hour.toNat, minute := minute.toNat
        second := second.toNat, offset }
    if date.isValid then .ok date else .error .malformed

def readFields (day month year time zone : Text) : Except DateError DateTime :=
  let month := Text.lower month
  let swapped :=
    match monthNumber? month with
    | some m => some (day, m)
    | none => (monthNumber? (Text.lower day)).map fun m => (month, m)
  match swapped with
  | none => .error .malformed
  | some (day, month) =>
      let day := dropComma day
      let (year, time) :=
        if year.contains (.char ':') && year.head? != some (.char ':') then (time, year)
        else (year, time)
      let year := dropComma year
      match year with
      | [] => .error .malformed
      | first :: _ =>
          let (year, zone) := if Text.isDigit first then (year, zone) else (zone, year)
          match timeFields (dropComma time) with
          | none => .error .malformed
          | some (hour, minute, second) =>
              match Text.readInt? year, Text.readInt? day, Text.readInt? hour,
                Text.readInt? minute, Text.readInt? second with
              | some year, some day, some hour, some minute, some second =>
                  makeDate (fullYear year) month day hour minute second (zoneOffset zone)
              | _, _, _, _, _ => .error .malformed

def readHeaderDate (value : Text) : Except DateError DateTime :=
  match dateFields (Text.words value) with
  | none => .error .malformed
  | some (day, month, year, time, zone) => readFields day month year time zone

end DataLake.Calendar
