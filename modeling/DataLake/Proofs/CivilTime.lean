import DataLake.Calendar
import Mathlib.Data.List.Basic

/-!
Times and civil dates. Every number of seconds from the epoch has exactly one date and time of
day in UTC. The year of a day is found by its mean length and then mended, and it is right for
all days, those before the epoch and before year 1 included; within the year the month is found
by counting its days off.
-/

namespace DataLake.Calendar

def daysIn : List Nat → Nat
  | [] => 0
  | length :: later => length + daysIn later

theorem daysIn_append (first later : List Nat) :
    daysIn (first ++ later) = daysIn first + daysIn later := by
  induction first with
  | nil => exact (Nat.zero_add _).symm
  | cons length first ih => simp only [List.cons_append, daysIn, ih, Nat.add_assoc]

theorem foldl_add_eq (lengths : List Nat) (k : Nat) :
    lengths.foldl (· + ·) k = k + daysIn lengths := by
  induction lengths generalizing k with
  | nil => rfl
  | cons length later ih => simp only [List.foldl_cons, daysIn, ih, Nat.add_assoc]

theorem daysBeforeYear_eq (year : Int) : daysBeforeYear year =
    365 * (year - 1) + (year - 1) / 4 - (year - 1) / 100 + (year - 1) / 400 :=
  rfl

/-- A year has as many days as its months. -/
theorem daysBeforeYear_succ (year : Int) :
    daysBeforeYear (year + 1) = daysBeforeYear year + daysIn (monthLengths (isLeap year)) := by
  have hsum (leap : Bool) : daysIn (monthLengths leap) = if leap then 366 else 365 := by
    cases leap <;> rfl
  rw [hsum, daysBeforeYear_eq, daysBeforeYear_eq]
  by_cases h4 : year % 4 = 0
  · by_cases h100 : year % 100 = 0
    · by_cases h400 : year % 400 = 0
      · have hleap : isLeap year = true := by simp [isLeap, h4, h400]
        simp only [hleap, if_true]
        omega
      · have hleap : isLeap year = false := by simp [isLeap, h100, h400]
        simp only [hleap, Bool.false_eq_true, if_false]
        omega
    · have hleap : isLeap year = true := by simp [isLeap, h4, h100]
      simp only [hleap, if_true]
      omega
  · have hleap : isLeap year = false := by simp [isLeap, h4]
    simp only [hleap, Bool.false_eq_true, if_false]
    omega

/-- The year of a day has begun and has not ended yet. -/
theorem yearOfDay_spec (day : Int) :
    daysBeforeYear (yearOfDay day) ≤ day ∧ day < daysBeforeYear (yearOfDay day + 1) := by
  unfold yearOfDay
  dsimp only
  -- The guess is one year off at most, so the years on both sides of it hold the day for sure.
  generalize hguess : day * 400 / 146097 + 1 = guess
  have hlow : daysBeforeYear (guess - 1) ≤ day := by
    rw [daysBeforeYear_eq]
    omega
  have hhigh : day < daysBeforeYear (guess + 1 + 1) := by
    rw [daysBeforeYear_eq]
    omega
  split
  · next hbefore =>
    rw [Int.sub_add_cancel]
    exact ⟨hlow, hbefore⟩
  · next hbegun =>
    split
    · next hover => exact ⟨hover, hhigh⟩
    · next hwithin => exact ⟨Int.not_lt.mp hbegun, Int.not_le.mp hwithin⟩

theorem daysBeforeYear_mono {year later : Int} (h : year ≤ later) :
    daysBeforeYear year ≤ daysBeforeYear later := by
  rw [daysBeforeYear_eq, daysBeforeYear_eq]
  omega

/-- A day lies in one year only. -/
theorem yearOfDay_eq {year day : Int} (hbegun : daysBeforeYear year ≤ day)
    (hwithin : day < daysBeforeYear (year + 1)) : yearOfDay day = year := by
  obtain ⟨hlow, hhigh⟩ := yearOfDay_spec day
  rcases Int.lt_trichotomy (yearOfDay day) year with hlt | heq | hgt
  · exact absurd (daysBeforeYear_mono (Int.add_one_le_of_lt hlt)) (by omega)
  · exact heq
  · exact absurd (daysBeforeYear_mono (Int.add_one_le_of_lt hgt)) (by omega)

section Months

variable {lengths : List Nat} {i length k : Nat}

/-- A day of a month lies within the year. -/
theorem daysIn_take_add_lt (hmonth : lengths[i]? = some length) (hday : k < length) :
    daysIn (lengths.take i) + k < daysIn lengths := by
  obtain ⟨hi, rfl⟩ := List.getElem?_eq_some_iff.mp hmonth
  have hsplit : daysIn (lengths.take i) + daysIn (lengths.drop i) = daysIn lengths := by
    rw [← daysIn_append, List.take_append_drop]
  rw [List.drop_eq_getElem_cons hi, daysIn] at hsplit
  omega

/-- Every day of a year lies in a month. -/
theorem exists_month {rest : Nat} (h : rest < daysIn lengths) :
    ∃ i length k, lengths[i]? = some length ∧ k < length ∧ rest = daysIn (lengths.take i) + k := by
  induction lengths generalizing rest with
  | nil => exact absurd h (Nat.not_lt_zero rest)
  | cons first later ih =>
      by_cases hfirst : rest < first
      · exact ⟨0, first, rest, rfl, hfirst, (Nat.zero_add rest).symm⟩
      · rw [daysIn] at h
        have hleft : rest - first < daysIn later := by omega
        obtain ⟨i, length, k, hmonth, hday, hrest⟩ := ih hleft
        refine ⟨i + 1, length, k, hmonth, hday, ?_⟩
        rw [List.take_succ_cons, daysIn]
        omega

/-- The month is found by counting off the months before it. -/
theorem monthOfDay_eq (first : Nat) (hmonth : lengths[i]? = some length) (hday : k < length) :
    monthOfDay first lengths (daysIn (lengths.take i) + k) = (first + i, k + 1) := by
  induction lengths generalizing first i with
  | nil => cases hmonth
  | cons head later ih =>
      cases i with
      | zero =>
          cases hmonth
          simp [monthOfDay, daysIn, hday]
      | succ i =>
          have hpast : ¬ head + daysIn (later.take i) + k < head := by omega
          have hleft : head + daysIn (later.take i) + k - head = daysIn (later.take i) + k := by omega
          rw [List.take_succ_cons, daysIn, monthOfDay, if_neg hpast, hleft, ih _ hmonth]
          rw [Nat.add_assoc, Nat.add_comm 1]

end Months

namespace DateTime

theorem isValid_iff (d : DateTime) : d.isValid = true ↔
    (1 ≤ d.year ∧ d.year ≤ 9999) ∧ (1 ≤ d.month ∧ d.month ≤ 12) ∧
      (1 ≤ d.day ∧ d.day ≤ (monthLengths (isLeap d.year)).getD (d.month - 1) 0) ∧
        d.hour ≤ 23 ∧ d.minute ≤ 59 ∧ d.second ≤ 59 := by
  simp only [isValid, inRange, Bool.and_eq_true, decide_eq_true_eq, and_assoc]

/-- The date and time in UTC of a day of a month and a second of the day, counted from zero. -/
def ofParts (year : Int) (i k s : Nat) : DateTime where
  year := year
  month := i + 1
  day := k + 1
  hour := s / 3600
  minute := s / 60 % 60
  second := s % 60
  offset := some 0

/-- The numbers count a day of a month of the year and a second of a day. -/
structure Counts (year : Int) (i k s : Nat) : Prop where
  day : ∃ length, (monthLengths (isLeap year))[i]? = some length ∧ k < length
  second : s < 86400

variable {year : Int} {i k s : Nat}

theorem toUnix_ofParts (year : Int) (i k s : Nat) : (ofParts year i k s).toUnix =
    (daysBeforeYear year + (daysIn ((monthLengths (isLeap year)).take i) + k : Nat) - epochDay) * 86400 +
      s := by
  have hday : (ofParts year i k s).dayNumber =
      daysBeforeYear year + (daysIn ((monthLengths (isLeap year)).take i) + k : Nat) := by
    unfold dayNumber
    rw [foldl_add_eq, Nat.zero_add]
    simp only [ofParts, Nat.add_sub_cancel]
    omega
  unfold toUnix
  rw [hday]
  simp only [ofParts, Option.getD_some]
  omega

theorem ofUnix_toUnix_ofParts (h : Counts year i k s) :
    ofUnix (ofParts year i k s).toUnix = ofParts year i k s := by
  obtain ⟨length, hmonth, hday⟩ := h.day
  have hsecond := h.second
  have hwithin := daysIn_take_add_lt hmonth hday
  rw [toUnix_ofParts]
  generalize hpast : daysIn ((monthLengths (isLeap year)).take i) + k = past at hwithin
  have hdayNumber : ((daysBeforeYear year + (past : Int) - epochDay) * 86400 + s) / 86400 + epochDay =
      daysBeforeYear year + past := by
    omega
  have hclock : (((daysBeforeYear year + (past : Int) - epochDay) * 86400 + s) % 86400).toNat = s := by
    omega
  have hyear : yearOfDay (daysBeforeYear year + past) = year :=
    yearOfDay_eq (by omega) (by rw [daysBeforeYear_succ]; omega)
  have hrest : (daysBeforeYear year + (past : Int) - daysBeforeYear year).toNat = past := by omega
  unfold ofUnix
  simp only [hdayNumber, hclock, hyear, hrest]
  rw [← hpast, monthOfDay_eq 1 hmonth hday]
  unfold ofParts
  rw [Nat.add_comm 1]

/-- Every time is that of some date and time of day. -/
theorem exists_ofParts (time : Int) :
    ∃ year i k s, Counts year i k s ∧ time = (ofParts year i k s).toUnix := by
  obtain ⟨hbegun, hwithin⟩ := yearOfDay_spec (time / 86400 + epochDay)
  generalize yearOfDay (time / 86400 + epochDay) = year at hbegun hwithin
  rw [daysBeforeYear_succ] at hwithin
  have hrest : (time / 86400 + epochDay - daysBeforeYear year).toNat <
      daysIn (monthLengths (isLeap year)) := by
    omega
  obtain ⟨i, length, k, hmonth, hday, hpast⟩ := exists_month hrest
  refine ⟨year, i, k, (time % 86400).toNat, ⟨⟨length, hmonth, hday⟩, by omega⟩, ?_⟩
  rw [toUnix_ofParts]
  omega

theorem isValid_ofParts (h : Counts year i k s) (hyear : 1 ≤ year ∧ year ≤ 9999) :
    (ofParts year i k s).isValid = true := by
  obtain ⟨length, hmonth, hday⟩ := h.day
  have hsecond := h.second
  have hi : i < 12 := (List.getElem?_eq_some_iff.mp hmonth).1
  have hlength : (monthLengths (isLeap year)).getD i 0 = length := by
    rw [List.getD_eq_getElem?_getD, hmonth]
    rfl
  rw [isValid_iff]
  simp only [ofParts, Nat.add_sub_cancel, hlength]
  omega

/-- A valid date and time in UTC comes from its counts. -/
theorem exists_counts {d : DateTime} (hvalid : d.isValid = true) (hutc : d.offset = some 0) :
    ∃ i k s, Counts d.year i k s ∧ d = ofParts d.year i k s := by
  obtain ⟨-, ⟨hmonth, hmonth'⟩, ⟨hday, hday'⟩, hhour, hminute, hsecond⟩ := d.isValid_iff.mp hvalid
  have hi : d.month - 1 < (monthLengths (isLeap d.year)).length := by
    change d.month - 1 < 12
    omega
  have hfound := List.getElem?_eq_getElem hi
  rw [List.getD_eq_getElem?_getD, hfound, Option.getD_some] at hday'
  refine ⟨d.month - 1, d.day - 1, d.hour * 3600 + d.minute * 60 + d.second,
    ⟨⟨_, hfound, by omega⟩, by omega⟩, ?_⟩
  have hclock (hour minute second : Nat) (hminute : minute ≤ 59) (hsecond : second ≤ 59) :
      (hour * 3600 + minute * 60 + second) / 3600 = hour ∧
        (hour * 3600 + minute * 60 + second) / 60 % 60 = minute ∧
          (hour * 3600 + minute * 60 + second) % 60 = second := by
    omega
  obtain ⟨hhour', hminute', hsecond'⟩ := hclock d.hour d.minute d.second hminute hsecond
  unfold ofParts
  rw [Nat.sub_add_cancel hmonth, Nat.sub_add_cancel hday, hhour', hminute', hsecond', ← hutc]

theorem day_le_of_isValid {d : DateTime} (hvalid : d.isValid = true) : d.day ≤ 31 := by
  have hlengths : ∀ leap, ∀ length ∈ monthLengths leap, length ≤ 31 := by decide
  obtain ⟨-, -, ⟨-, hday⟩, -⟩ := d.isValid_iff.mp hvalid
  rw [List.getD_eq_getElem?_getD] at hday
  cases hfound : (monthLengths (isLeap d.year))[d.month - 1]? with
  | none =>
      rw [hfound] at hday
      exact Nat.le_trans hday (by decide)
  | some length =>
      rw [hfound] at hday
      exact Nat.le_trans hday (hlengths _ length (List.mem_of_getElem? hfound))

/-- The date and the time of day are those of a time in UTC. -/
structure Denotes (d : DateTime) (time : Int) : Prop where
  valid : d.isValid = true
  utc : d.offset = some 0
  toUnix_eq : d.toUnix = time

/-- A time in a year that dates can have is that of its date and time of day. -/
theorem ofUnix_denotes {time : Int} (hyear : 1 ≤ (ofUnix time).year ∧ (ofUnix time).year ≤ 9999) :
    (ofUnix time).Denotes time := by
  obtain ⟨year, i, k, s, hcounts, rfl⟩ := exists_ofParts time
  rw [ofUnix_toUnix_ofParts hcounts] at hyear ⊢
  exact ⟨isValid_ofParts hcounts hyear, rfl, rfl⟩

/-- No other date and time is that of the same time. -/
theorem Denotes.eq_ofUnix {d : DateTime} {time : Int} (h : d.Denotes time) : d = ofUnix time := by
  obtain ⟨i, k, s, hcounts, hd⟩ := exists_counts h.valid h.utc
  rw [← h.toUnix_eq, hd]
  exact (ofUnix_toUnix_ofParts hcounts).symm

def yearStart (year : Int) : Int :=
  (daysBeforeYear year - epochDay) * 86400

/-- A time lies in a year or a later one exactly if that year has begun. -/
theorem le_year_ofUnix_iff (year time : Int) : year ≤ (ofUnix time).year ↔ yearStart year ≤ time := by
  have hday : yearStart year ≤ time ↔ daysBeforeYear year ≤ time / 86400 + epochDay := by
    unfold yearStart
    omega
  obtain ⟨hbegun, hwithin⟩ := yearOfDay_spec (time / 86400 + epochDay)
  rw [hday]
  change year ≤ yearOfDay (time / 86400 + epochDay) ↔ _
  constructor
  · exact fun h => Int.le_trans (daysBeforeYear_mono h) hbegun
  · intro h
    by_contra hlt
    exact absurd (daysBeforeYear_mono (Int.add_one_le_of_lt (Int.not_le.mp hlt))) (by omega)

example : yearStart 1970 = 0 := by decide

end DateTime

end DataLake.Calendar
