import DataLake.Calendar.HeaderDate

/-!
The numbers of a header date. Reading a date first finds its numbers among the words and
then makes the date of them. They are unbounded, and a date is computed with machine numbers:
which dates have a number too large for that is said here without a look at the reading's
result.
-/

namespace DataLake.Calendar

/-- The numbers of a date as its words give them, the year with its century. -/
structure DateNumbers where
  year : Int
  month : Nat
  day : Int
  hour : Int
  minute : Int
  second : Int
  /-- The seconds ahead of UTC. -/
  offset : Option Int
  deriving DecidableEq, Repr

namespace DateNumbers

def date (n : DateNumbers) : Except DateError DateTime :=
  makeDate n.year n.month n.day n.hour n.minute n.second n.offset

/-- The whole days in the distance to UTC. -/
def offsetDays (n : DateNumbers) : Int :=
  n.offset.getD 0 / 86400

/-- The numbers that go into the date and the time of day as they are. -/
def parts (n : DateNumbers) : List Int :=
  [n.year, n.day, n.hour, n.minute, n.second]

/-- A number is beyond what a date is computed with. The offset comes first: one of a day or
more is refused before the others are looked at, and one of very many days cannot even be
refused. -/
def Overflow (n : DateNumbers) : Prop :=
  (n.offsetDays < -999999999 ∨ 999999999 < n.offsetDays) ∨
    (n.offset.getD 0).natAbs < 86400 ∧ ∃ m ∈ n.parts, m < -2147483648 ∨ 2147483647 < m

instance (n : DateNumbers) : Decidable n.Overflow :=
  inferInstanceAs (Decidable ((n.offsetDays < -999999999 ∨ 999999999 < n.offsetDays) ∨
    (n.offset.getD 0).natAbs < 86400 ∧ ∃ m ∈ n.parts, m < -2147483648 ∨ 2147483647 < m))

theorem fitsWord_eq_false_iff (m : Int) :
    fitsWord m = false ↔ m < -2147483648 ∨ 2147483647 < m := by
  simp only [fitsWord, Bool.and_eq_false_iff, decide_eq_false_iff_not]
  omega

theorem date_eq_outOfBounds_iff (n : DateNumbers) :
    n.date = .error .outOfBounds ↔ n.Overflow := by
  unfold date makeDate
  dsimp only
  split
  · next hdays =>
    have hdays : n.offsetDays < -999999999 ∨ 999999999 < n.offsetDays := by
      simpa [offsetDays] using hdays
    exact iff_of_true rfl (.inl hdays)
  · next hdays =>
    have hfew : ¬ (n.offsetDays < -999999999 ∨ 999999999 < n.offsetDays) := by
      simpa [offsetDays] using hdays
    split
    · next hday =>
      have hday : ¬ (n.offset.getD 0).natAbs < 86400 := by simpa using hday
      apply iff_of_false (by simp)
      rintro (hmany | ⟨hoffset, -⟩)
      · exact hfew hmany
      · exact hday hoffset
    · next hday =>
      have hday : (n.offset.getD 0).natAbs < 86400 := by simpa using hday
      split
      · next hpart =>
        have hpart : n.parts.all fitsWord = false := (Bool.not_eq_true' _).mp hpart
        obtain ⟨m, hm, hword⟩ := List.all_eq_false.mp hpart
        exact iff_of_true rfl
          (.inr ⟨hday, m, hm, (fitsWord_eq_false_iff m).mp (Bool.eq_false_iff.mpr hword)⟩)
      · next hpart =>
        have hpart : n.parts.all fitsWord = true := by simpa [parts] using hpart
        apply iff_of_false
        · split
          · simp
          · split <;> simp
        rintro (hmany | ⟨-, m, hm, hword⟩)
        · exact hfew hmany
        · exact Bool.false_ne_true (((fitsWord_eq_false_iff _).mpr hword).symm.trans
            (List.all_eq_true.mp hpart _ hm))

end DateNumbers

/-- Day and month. They may stand in either order, and the month tells which is which. -/
def dayAndMonth? (day month : Text) : Option (Text × Nat) :=
  match monthNumber? (Text.lower month) with
  | some m => some (day, m)
  | none => (monthNumber? (Text.lower day)).map fun m => (Text.lower month, m)

/-- Year and time. They may stand in either order, and the colon tells which is which. -/
def yearAndTime (year time : Text) : Text × Text :=
  if year.contains (.char ':') && year.head? != some (.char ':') then (time, year)
  else (year, time)

def fieldNumbers? (day month year time zone : Text) : Option DateNumbers := do
  let (day, month) ← dayAndMonth? day month
  let (year, time) := yearAndTime year time
  let year := dropComma year
  let first ← year.head?
  -- A zone may stand in the place of the year.
  let (year, zone) := if Text.isDigit first then (year, zone) else (zone, year)
  let (hour, minute, second) ← timeFields (dropComma time)
  let year ← Text.readInt? year
  let day ← Text.readInt? (dropComma day)
  let hour ← Text.readInt? hour
  let minute ← Text.readInt? minute
  let second ← Text.readInt? second
  return { year := fullYear year, month, day, hour, minute, second, offset := zoneOffset zone }

def dateNumbers? (value : Text) : Option DateNumbers := do
  let (day, month, year, time, zone) ← dateFields (Text.words value)
  fieldNumbers? day month year time zone

theorem readFields_eq (day month year time zone : Text) :
    readFields day month year time zone =
      (fieldNumbers? day month year time zone).elim (.error .malformed) DateNumbers.date := by
  unfold readFields fieldNumbers?
  dsimp only
  split
  · next hnone =>
    have hnone : dayAndMonth? day month = none := hnone
    rw [hnone]
    rfl
  · next day' month' hdated =>
    have hdated : dayAndMonth? day month = some (day', month') := hdated
    have htimed : (if year.contains (.char ':') && year.head? != some (.char ':') then (time, year)
        else (year, time)) = yearAndTime year time := rfl
    rw [hdated, htimed]
    rcases yearAndTime year time with ⟨year, time⟩
    simp only [Option.bind_eq_bind, Option.bind_some]
    rcases dropComma year with _ | ⟨first, rest⟩
    · rfl
    · simp only [List.head?_cons, Option.bind_some]
      generalize (if Text.isDigit first = true then (first :: rest, zone)
        else (zone, first :: rest)) = placed
      rcases timeFields (dropComma time) with _ | ⟨hour, minute, second⟩
      · rfl
      · simp only [Option.bind_some]
        cases Text.readInt? placed.1 <;> cases Text.readInt? (dropComma day') <;>
          cases Text.readInt? hour <;> cases Text.readInt? minute <;>
            cases Text.readInt? second <;> rfl

/-- A date is read from its numbers alone. -/
theorem readHeaderDate_eq (value : Text) :
    readHeaderDate value = (dateNumbers? value).elim (.error .malformed) DateNumbers.date := by
  unfold readHeaderDate dateNumbers?
  rcases dateFields (Text.words value) with _ | ⟨day, month, year, time, zone⟩
  · rfl
  · exact readFields_eq day month year time zone

/-- A value that gives the numbers of a date, one of them too large. -/
def Overflows (value : Text) : Prop :=
  ∃ n, dateNumbers? value = some n ∧ n.Overflow

theorem readHeaderDate_eq_outOfBounds_iff (value : Text) :
    readHeaderDate value = .error .outOfBounds ↔ Overflows value := by
  rw [readHeaderDate_eq]
  unfold Overflows
  cases dateNumbers? value with
  | none => simp
  | some n => simpa using n.date_eq_outOfBounds_iff

instance (value : Text) : Decidable (Overflows value) :=
  inferInstanceAs (Decidable (∃ n ∈ dateNumbers? value, n.Overflow))

example : Overflows "Mon, 1 Jan 2024 00:00:00 +99999999999999" := by decide +kernel

example : ¬ Overflows "Mon, 1 Jan 2024 00:00:00 +9999" := by decide +kernel

end DataLake.Calendar
