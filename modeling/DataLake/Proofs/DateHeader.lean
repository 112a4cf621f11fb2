import DataLake.Proofs.CivilTime
import DataLake.Proofs.DateNumbers
import DataLake.Proofs.PlainNumber
import DataLake.Proofs.Signature

/-!
The date of signing. A request tells when it was signed in a fixed form, and the reader of dates,
which takes many forms and mends short years, reads this one as it was meant: the date and time
in UTC of exactly that second. Years below 100 are the ones that the reader would mend.
-/

namespace DataLake

namespace Text

def IsWord (t : Text) : Prop :=
  t ≠ [] ∧ ∀ c ∈ t, isBlank c = false

/-- Words with one blank between neighbours are found again. -/
theorem words_joinWith {ws : List Text} (h : ∀ w ∈ ws, IsWord w) : words (joinWith " " ws) = ws := by
  induction ws with
  | nil => rfl
  | cons w ws ih =>
      obtain ⟨⟨hne, hplain⟩, hmore⟩ := List.forall_mem_cons.mp h
      by_cases hlast : ws = []
      · rw [hlast, joinWith_singleton, words_of_not_blank hplain, if_neg (by simpa using hne)]
      · rw [joinWith_cons _ _ hlast]
        have hblank : isBlank (.char ' ') = true := by decide
        exact (words_append_cons hne hplain hblank _).trans (congrArg (List.cons w) (ih hmore))

theorem isWord_ofNatPadded (width n : Nat) : (ofNatPadded width n).IsWord :=
  ⟨List.append_ne_nil_of_right_ne_nil _ (ofNat_ne_nil n),
    fun _ hc => isBlank_of_isAsciiDigit (isAsciiDigit_of_mem_ofNatPadded hc)⟩

end Text

namespace Calendar

theorem dropComma_of_not_mem {t : Text} (h : .char ',' ∉ t) : dropComma t = t :=
  if_neg fun hlast => h (List.mem_of_getLast? hlast)

theorem dropComma_ofNatPadded (width n : Nat) :
    dropComma (Text.ofNatPadded width n) = Text.ofNatPadded width n :=
  dropComma_of_not_mem (Text.not_mem_ofNatPadded (by decide) width n)

/-- A year has no colon, so the time is what follows it. -/
theorem yearAndTime_ofNatPadded (width n : Nat) (time : Text) :
    yearAndTime (Text.ofNatPadded width n) time = (Text.ofNatPadded width n, time) := by
  have hcolon : .char ':' ∉ Text.ofNatPadded width n :=
    Text.not_mem_ofNatPadded (by decide) width n
  have hnone : (Text.ofNatPadded width n).contains (.char ':') = false := by simpa using hcolon
  unfold yearAndTime
  rw [hnone, Bool.false_and]
  exact if_neg Bool.false_ne_true

namespace DateTime

variable {d : DateTime}

def weekdayName (d : DateTime) : Text :=
  weekdayNames.getD (d.dayNumber % 7).toNat []

def monthName (d : DateTime) : Text :=
  monthNames.getD (d.month - 1) []

def clockText (d : DateTime) : Text :=
  Text.joinWith ":" ([d.hour, d.minute, d.second].map (Text.ofNatPadded 2))

def headerWords (d : DateTime) : List Text :=
  [d.weekdayName ++ ",", Text.ofNatPadded 2 d.day, d.monthName, Text.ofNatPadded 4 d.year.toNat,
    d.clockText, "GMT"]

theorem headerText_eq (d : DateTime) : d.headerText = Text.joinWith " " d.headerWords := by
  have hcomma : Text.ofString ", " = Text.ofString "," ++ Text.ofString " " := rfl
  have hzone : Text.ofString " GMT" = Text.ofString " " ++ Text.ofString "GMT" := rfl
  unfold headerText headerWords clockText
  rw [hcomma, hzone]
  simp [Text.joinWith, List.intercalate, weekdayName, monthName]

theorem mem_clockText {c : CodePoint} (h : c ∈ d.clockText) :
    c = .char ':' ∨ c.isAsciiDigit = true := by
  rcases Text.mem_joinWith h with hcolon | ⟨piece, hpiece, hc⟩
  · exact .inl (List.mem_singleton.mp hcolon)
  · obtain ⟨n, -, rfl⟩ := List.mem_map.mp hpiece
    exact .inr (Text.isAsciiDigit_of_mem_ofNatPadded hc)

theorem isWord_clockText (d : DateTime) : d.clockText.IsWord := by
  constructor
  · unfold clockText
    rw [List.map_cons, Text.joinWith_cons _ _ (by simp)]
    exact List.append_ne_nil_of_left_ne_nil (Text.isWord_ofNatPadded 2 d.hour).1 _
  · intro c hc
    rcases mem_clockText hc with rfl | hdigit
    · decide
    · exact Text.isBlank_of_isAsciiDigit hdigit

theorem isWord_monthName (hmonth : d.month - 1 < 12) : d.monthName.IsWord := by
  have hnames : ∀ i < 12, monthNames.getD i [] ≠ [] ∧
      ∀ c ∈ monthNames.getD i [], Text.isBlank c = false := by decide
  exact hnames _ hmonth

theorem words_headerText (hmonth : d.month - 1 < 12) : Text.words d.headerText = d.headerWords := by
  have hweekdays : ∀ i < 7, ∀ c ∈ weekdayNames.getD i [] ++ Text.ofString ",",
      Text.isBlank c = false := by decide
  have hweekday : (d.weekdayName ++ ",").IsWord :=
    ⟨by simp [Text.ofString, Text.ofChars], hweekdays _ (by omega)⟩
  have hzone : (Text.ofString "GMT").IsWord := ⟨by decide, by decide⟩
  rw [headerText_eq]
  apply Text.words_joinWith
  simp only [headerWords, List.forall_mem_cons]
  exact ⟨hweekday, Text.isWord_ofNatPadded _ _, isWord_monthName hmonth, Text.isWord_ofNatPadded _ _,
    isWord_clockText d, hzone, List.forall_mem_nil _⟩

/-- The weekday is left out, and what follows it are the fields. -/
theorem dateFields_headerWords (hmonth : d.month - 1 < 12) : dateFields d.headerWords =
    some (Text.ofNatPadded 2 d.day, d.monthName, Text.ofNatPadded 4 d.year.toNat, d.clockText,
      Text.ofString "GMT") := by
  have hweekday : dropWeekday d.headerWords = d.headerWords.tail := by
    have hcomma : (d.weekdayName ++ ",").getLast? = some (.char ',') := List.getLast?_concat
    unfold headerWords dropWeekday
    dsimp only
    rw [hcomma]
    rfl
  have hday := (Text.isWord_ofNatPadded 2 d.day).1
  have hyear := (Text.isWord_ofNatPadded 4 d.year.toNat).1
  have hname := (isWord_monthName hmonth).1
  have hfields : ((Text.ofNatPadded 2 d.day).isEmpty || d.monthName.isEmpty ||
      (Text.ofNatPadded 4 d.year.toNat).isEmpty) = false := by
    simp [hday, hyear, hname]
  unfold dateFields
  rw [hweekday]
  exact if_neg (Bool.eq_false_iff.mp hfields)

theorem timeFields_clockText (d : DateTime) : timeFields d.clockText =
    some (Text.ofNatPadded 2 d.hour, Text.ofNatPadded 2 d.minute, Text.ofNatPadded 2 d.second) := by
  have hsplit : Text.splitOn ':' d.clockText =
      [d.hour, d.minute, d.second].map (Text.ofNatPadded 2) := by
    apply Text.splitOn_joinWith (by simp)
    intro piece hpiece hcolon
    obtain ⟨n, -, rfl⟩ := List.mem_map.mp hpiece
    exact absurd (Text.isAsciiDigit_of_mem_ofNatPadded hcolon) (by decide)
  unfold timeFields
  rw [hsplit]
  rfl

theorem dayAndMonth?_monthName (hmonth : 1 ≤ d.month ∧ d.month ≤ 12) (day : Text) :
    dayAndMonth? day d.monthName = some (day, d.month) := by
  have hnames : ∀ i < 12, monthNumber? (Text.lower (monthNames.getD i [])) = some (i + 1) := by
    decide
  unfold dayAndMonth? monthName
  rw [hnames _ (by omega), Nat.sub_add_cancel hmonth.1]

def numbers (d : DateTime) : DateNumbers where
  year := d.year
  month := d.month
  day := d.day
  hour := d.hour
  minute := d.minute
  second := d.second
  offset := d.offset

/-- The numbers of a valid date make that date again. -/
theorem date_numbers (hvalid : d.isValid = true) (hutc : d.offset = some 0) :
    d.numbers.date = .ok d := by
  obtain ⟨hyear, -, -, hhour, hminute, hsecond⟩ := d.isValid_iff.mp hvalid
  have hday := day_le_of_isValid hvalid
  have hword (n : Int) (hn : 0 ≤ n ∧ n ≤ 9999) : fitsWord n = true := by
    simp only [fitsWord, Bool.and_eq_true, decide_eq_true_eq]
    omega
  have hfit : ([d.year, d.day, d.hour, d.minute, d.second] : List Int).all fitsWord = true := by
    simp only [List.all_cons, List.all_nil, Bool.and_true, Bool.and_eq_true]
    exact ⟨hword _ (by omega), hword _ (by omega), hword _ (by omega), hword _ (by omega),
      hword _ (by omega)⟩
  have hsigns : ¬ ((d.day : Int) < 0 || (d.hour : Int) < 0 || (d.minute : Int) < 0 ||
      (d.second : Int) < 0) := by
    simp
  have hoffset : d.offset.getD 0 = 0 := by rw [hutc, Option.getD_some]
  change makeDate d.year d.month d.day d.hour d.minute d.second d.offset = .ok d
  unfold makeDate
  rw [hoffset]
  dsimp only
  rw [if_neg (by decide), if_neg (by decide), if_neg (by rw [hfit]; decide), if_neg hsigns]
  exact if_pos hvalid

/-- The fields of the header form give the numbers of the date. A year of two digits would have
a century added to it. -/
theorem fieldNumbers?_headerFields (hvalid : d.isValid = true) (hutc : d.offset = some 0)
    (hyear : 100 ≤ d.year) :
    fieldNumbers? (Text.ofNatPadded 2 d.day) d.monthName (Text.ofNatPadded 4 d.year.toNat)
      d.clockText (Text.ofString "GMT") = some d.numbers := by
  obtain ⟨hyears, hmonth, -, hhour, hminute, hsecond⟩ := d.isValid_iff.mp hvalid
  have hday := day_le_of_isValid hvalid
  have hclock : dropComma d.clockText = d.clockText := dropComma_of_not_mem fun hmem =>
    (mem_clockText hmem).elim (by decide) (by decide)
  have htwo {n : Nat} (hn : n ≤ 59) : Text.readInt? (Text.ofNatPadded 2 n) = some (n : Int) :=
    Text.readInt?_ofNatPadded (by decide) (by decide) (by dsimp; omega)
  have hfour : Text.readInt? (Text.ofNatPadded 4 d.year.toNat) = some d.year := by
    rw [Text.readInt?_ofNatPadded (by decide) (by decide) (by dsimp; omega), Int.toNat_of_nonneg (by omega)]
  obtain ⟨first, rest, hfirst⟩ := List.exists_cons_of_ne_nil (Text.isWord_ofNatPadded 4 d.year.toNat).1
  have hdigit : Text.isDigit first = true :=
    Text.isDigit_of_isAsciiDigit (Text.isAsciiDigit_of_mem_ofNatPadded (hfirst ▸ List.mem_cons_self))
  have hhead : (Text.ofNatPadded 4 d.year.toNat).head? = some first := by rw [hfirst]; rfl
  have hzone : zoneOffset (Text.ofString "GMT") = some 0 := by decide
  have hcentury : fullYear d.year = d.year := if_neg (by omega)
  have hdayRead := htwo (Nat.le_trans hday (by decide))
  have hhourRead := htwo (Nat.le_trans hhour (by decide))
  -- Each field is in its usual place, and no mending applies to it.
  unfold fieldNumbers?
  simp only [dayAndMonth?_monthName hmonth, yearAndTime_ofNatPadded, hclock, dropComma_ofNatPadded,
    hhead, hdigit, timeFields_clockText, hfour, hdayRead, hhourRead, htwo hminute, htwo hsecond,
    hzone, hcentury, Option.bind_eq_bind, Option.bind_some, if_true, ← hutc]
  rfl

/-- The header form of a date is read as that date. -/
theorem readHeaderDate_headerText (hvalid : d.isValid = true) (hutc : d.offset = some 0)
    (hyear : 100 ≤ d.year) : readHeaderDate d.headerText = .ok d := by
  obtain ⟨-, hmonth, -⟩ := d.isValid_iff.mp hvalid
  have hmonth' : d.month - 1 < 12 := by omega
  have hnumbers : dateNumbers? d.headerText = some d.numbers := by
    unfold dateNumbers?
    rw [words_headerText hmonth', dateFields_headerWords hmonth']
    exact fieldNumbers?_headerFields hvalid hutc hyear
  rw [readHeaderDate_eq, hnumbers, Option.elim_some, date_numbers hvalid hutc]

example : (ofUnix (-11670953104)).headerText = "Tue, 29 Feb 1600 12:34:56 GMT" := by decide

end DateTime

end Calendar

namespace Signing

open Calendar (DateTime)

variable {now : Int}

theorem year_ofUnix (hfrom : DateTime.yearStart 100 ≤ now) (huntil : now < DateTime.yearStart 10000) :
    100 ≤ (DateTime.ofUnix now).year ∧ (DateTime.ofUnix now).year ≤ 9999 := by
  refine ⟨(DateTime.le_year_ofUnix_iff 100 now).mpr hfrom, ?_⟩
  by_contra hlater
  have hbegun := (DateTime.le_year_ofUnix_iff 10000 now).mp (by omega)
  omega

/-- A time in these years can be told. -/
theorem dateValue_eq (hfrom : DateTime.yearStart 100 ≤ now) (huntil : now < DateTime.yearStart 10000) :
    dateValue now = .ok (DateTime.ofUnix now).headerText := by
  obtain ⟨hlow, hhigh⟩ := year_ofUnix hfrom huntil
  have hword : Number.isWord now = true := by
    have hfirst : -0x8000000000000000 ≤ DateTime.yearStart 100 := by decide
    have hlast : DateTime.yearStart 10000 ≤ 0x8000000000000000 := by decide
    simp only [Number.isWord, Bool.and_eq_true, decide_eq_true_eq]
    omega
  have hfits : Calendar.fitsWord ((DateTime.ofUnix now).year - 1900) = true := by
    simp only [Calendar.fitsWord, Bool.and_eq_true, decide_eq_true_eq]
    omega
  have hrange : Calendar.inRange (DateTime.ofUnix now).year = true := by
    simp only [Calendar.inRange, Bool.and_eq_true, decide_eq_true_eq]
    omega
  unfold dateValue
  simp only [hword, hfits, hrange, Bool.not_true, Bool.false_eq_true, if_false]

/-- The time of signing is in the request also when nothing shows the right to it. -/
theorem get?_sign_dateHeader {date : Text} (hdate : dateValue now = .ok date) (version : Text)
    (c : Credential) (r : Request) :
    (sign version now c r).1.headers.get? dateHeader = some date := by
  have hdated : ((r.headers.set dateHeader date).set versionHeader version).get? dateHeader =
      some date := by
    rw [Headers.get?_set_of_ne (by decide), Headers.get?_set_self]
  unfold sign
  rw [hdate]
  dsimp only
  split
  · exact hdated
  · exact (Headers.get?_set_of_ne (by decide)).trans hdated

/-- The time of signing reads back. In all the years that a date of four digits can have and
that are not mended as short ones, before the epoch and after it, the header of a signed
request is read as the one date and time in UTC that denotes the second of signing. -/
theorem date_reads_back (version : Text) (now : Int) (c : Credential) (r : Request)
    (hfrom : DateTime.yearStart 100 ≤ now) (huntil : now < DateTime.yearStart 10000) :
    ∃ value d, (sign version now c r).1.headers.get? dateHeader = some value ∧
      readDate value = .ok d ∧ d.Denotes now ∧ ∀ other : DateTime, other.Denotes now → other = d := by
  obtain ⟨hlow, hhigh⟩ := year_ofUnix hfrom huntil
  have hdenotes : (DateTime.ofUnix now).Denotes now := DateTime.ofUnix_denotes ⟨by omega, hhigh⟩
  have hread := DateTime.readHeaderDate_headerText hdenotes.valid hdenotes.utc hlow
  refine ⟨(DateTime.ofUnix now).headerText, DateTime.ofUnix now, ?_, ?_, hdenotes, ?_⟩
  · exact get?_sign_dateHeader (dateValue_eq hfrom huntil) version c r
  · unfold readDate
    rw [hread]
  · exact fun _ hother => hother.eq_ofUnix

/-- The leap day of a century before the epoch, in a request that cannot be signed for want of a
key or a token. -/
theorem date_reads_back_leap_day :
    DateTime.yearStart 100 ≤ -11670953104 ∧ -11670953104 < DateTime.yearStart 10000 ∧
      ∃ value d, (sign defaultVersion (-11670953104) {} ⟨"GET", "https://x/", [], []⟩).1.headers.get?
          dateHeader = some value ∧
        readDate value = .ok d ∧ d.Denotes (-11670953104) ∧
          ∀ other : DateTime, other.Denotes (-11670953104) → other = d := by
  have hfrom : DateTime.yearStart 100 ≤ -11670953104 := by decide
  have huntil : -11670953104 < DateTime.yearStart 10000 := by decide
  exact ⟨hfrom, huntil, date_reads_back defaultVersion _ {} _ hfrom huntil⟩

end Signing

end DataLake
