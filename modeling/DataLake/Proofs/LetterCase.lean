import DataLake.Proofs.SentUrl
import Mathlib.Data.List.SplitBy

/-!
The case of ASCII letters. Lower case of a whole text depends on what stands around a letter,
but only on whether letters stand there, so it does not matter which of them were capitals.
Decoding the fields of a query does not depend on the case of letters either: the digits of an
escape may be written in both, and no letter is part of a longer character.
-/

namespace DataLake

namespace CodePoint

/-- What is not an ASCII character has no other case here. -/
theorem asciiLower_of_not_isAscii {c : CodePoint} (h : c.isAscii = false) : c.asciiLower = c := by
  cases c with
  | half n => rfl
  | char c =>
      have hc : ¬ c.toNat < 0x80 := of_decide_eq_false h
      have hlower : c.toLower = c := by
        unfold Char.toLower
        refine dif_neg fun hcapital => hc ?_
        have hle : c.toNat ≤ 90 := hcapital.2
        omega
      exact congrArg char hlower

/-- What compares a code point with its lower case has to be looked at for ASCII characters
only. -/
theorem asciiLower_cases {p : CodePoint → CodePoint → Bool}
    (hascii : ∀ n : Fin 128, p (.ofNat n) (CodePoint.ofNat n).asciiLower = true)
    (hsame : ∀ c, p c c = true) (c : CodePoint) : p c c.asciiLower = true := by
  cases hc : c.isAscii with
  | true => exact Url.of_ascii (p := fun c => p c c.asciiLower) hascii (of_decide_eq_true hc)
  | false =>
      rw [asciiLower_of_not_isAscii hc]
      exact hsame c

/-- Lower case keeps what is the same for both cases of every letter. -/
theorem apply_asciiLower {α : Type} [DecidableEq α] {f : CodePoint → α}
    (hascii : ∀ n : Fin 128, f (CodePoint.ofNat n).asciiLower = f (.ofNat n)) (c : CodePoint) :
    f c.asciiLower = f c :=
  beq_iff_eq.mp (asciiLower_cases (p := fun c d => f d == f c) (fun n => beq_iff_eq.mpr (hascii n))
    (fun _ => beq_iff_eq.mpr rfl) c)

@[simp] theorem asciiLower_asciiLower (c : CodePoint) : c.asciiLower.asciiLower = c.asciiLower :=
  apply_asciiLower (by decide) c

@[simp] theorem isAscii_asciiLower (c : CodePoint) : c.asciiLower.isAscii = c.isAscii :=
  apply_asciiLower (by decide) c

theorem hexValue?_asciiLower (c : CodePoint) : c.asciiLower.hexValue? = c.hexValue? :=
  apply_asciiLower (by decide) c

theorem asciiLower_eq_iff {c d : CodePoint} (hd : ∀ n : Fin 128,
    ((CodePoint.ofNat n).asciiLower == d) = (CodePoint.ofNat n == d)) : c.asciiLower = d ↔ c = d := by
  rw [← beq_iff_eq, apply_asciiLower (f := fun c => c == d) hd c, beq_iff_eq]

end CodePoint

namespace Text

/-- The text with its ASCII letters in lower case. -/
def fold (t : Text) : Text :=
  t.map CodePoint.asciiLower

@[simp] theorem fold_cons (c : CodePoint) (t : Text) : fold (c :: t) = c.asciiLower :: fold t :=
  rfl

@[simp] theorem fold_fold (t : Text) : fold (fold t) = fold t := by
  unfold fold
  rw [List.map_map]
  exact List.map_congr_left fun c _ => c.asciiLower_asciiLower

section Lower

/-- A character with another case is a letter in both cases. -/
theorem cased_of_asciiLower_ne {c : CodePoint} (h : c.asciiLower ≠ c) :
    inRanges casedRanges c = true ∧ inRanges casedRanges c.asciiLower = true := by
  have hletter := CodePoint.asciiLower_cases (p := fun c d => d == c ||
    decide ((0x41 ≤ c.toNat ∧ c.toNat ≤ 0x5A) ∧ 0x61 ≤ d.toNat ∧ d.toNat ≤ 0x7A)) (by decide)
    (by simp) c
  simp only [beq_eq_false_iff_ne.mpr h, Bool.false_or, decide_eq_true_eq] at hletter
  have hcapital : (0x41, 0x5A) ∈ casedRanges := .head _
  have hsmall : (0x61, 0x7A) ∈ casedRanges := .tail _ (.head _)
  unfold inRanges
  rw [List.any_eq_true, List.any_eq_true]
  exact ⟨⟨_, hcapital, by simpa using hletter.1⟩, ⟨_, hsmall, by simpa using hletter.2⟩⟩

theorem meetsCased_fold (t : Text) : meetsCased (fold t) = meetsCased t := by
  induction t with
  | nil => rfl
  | cons c t ih =>
      rw [fold_cons, meetsCased, meetsCased]
      by_cases hc : c.asciiLower = c
      · rw [hc, ih]
      · obtain ⟨hcased, hcased'⟩ := cased_of_asciiLower_ne hc
        rw [if_pos hcased, if_pos hcased']

theorem lowerAt_fold (before : Text) (c : CodePoint) (after : Text) :
    lowerAt (fold before) c.asciiLower (fold after) = lowerAt before c after := by
  unfold lowerAt
  cases hc : c.isAscii with
  | true =>
      have hlow : c.toNat < 0x80 := of_decide_eq_true hc
      have hlow' : c.asciiLower.toNat < 0x80 := of_decide_eq_true (c.isAscii_asciiLower.trans hc)
      rw [if_pos hlow, if_pos hlow', CodePoint.asciiLower_asciiLower]
  | false =>
      have hhigh : ¬ c.toNat < 0x80 := of_decide_eq_false hc
      rw [CodePoint.asciiLower_of_not_isAscii hc, if_neg hhigh, if_neg hhigh, meetsCased_fold,
        meetsCased_fold]

theorem lowerFrom_fold (before t : Text) :
    lowerFrom (fold before) (fold t) = lowerFrom before t := by
  induction t generalizing before with
  | nil => rfl
  | cons c t ih =>
      rw [fold_cons, lowerFrom, lowerFrom, lowerAt_fold, ← fold_cons, ih]

/-- The lower-case form of a text does not depend on the case of its ASCII letters. -/
theorem lower_fold (t : Text) : lower (fold t) = lower t :=
  lowerFrom_fold [] t

theorem lower_eq_of_fold_eq {t u : Text} (h : fold t = fold u) : lower t = lower u := by
  rw [← lower_fold, h, lower_fold]

/-- The small form of a character that is not ASCII is not ASCII either, but for one sign that
is a `k`. -/
theorem lookupRun_lowerRuns {c d : CodePoint} (hc : 0x80 ≤ c.toNat)
    (h : lookupRun lowerRuns c = some d) : 0x80 ≤ d.toNat ∨ d = .char 'k' := by
  have hruns : ∀ r ∈ lowerRuns, r.last < 0x80 ∨
      (0x80 ≤ (r.first : Int) + r.shift ∧ (r.last : Int) + r.shift < 0x110000) ∨
      (r.first = 0x212A ∧ r.last = 0x212A ∧ r.shift = -8383) := by
    decide +kernel
  obtain ⟨r, hfind, rfl⟩ := Option.map_eq_some_iff.mp h
  have hcovers := List.find?_some hfind
  simp only [Bool.and_eq_true, decide_eq_true_eq] at hcovers
  rcases hruns r (List.mem_of_find?_eq_some hfind)
    with hlow | ⟨hfirst, hlast⟩ | ⟨hfirst, hlast, hshift⟩
  · omega
  · left
    rw [CodePoint.toNat_ofNat (by omega)]
    omega
  · right
    have hkelvin : c.toNat = 0x212A := by omega
    rw [hkelvin, hshift]
    rfl

theorem exists_mem_lowerAt {c : CodePoint} (hc : c.isAscii = false) (before after : Text) :
    ∃ d ∈ lowerAt before c after, d.isAscii = false ∨ d = .char 'k' := by
  have hhigh : ¬ c.toNat < 0x80 := of_decide_eq_false hc
  unfold lowerAt
  rw [if_neg hhigh]
  split
  · split
    · exact ⟨_, List.mem_singleton_self _, .inl rfl⟩
    · exact ⟨_, List.mem_singleton_self _, .inl rfl⟩
  · split
    · exact ⟨_, .tail _ (.head _), .inl rfl⟩
    · refine ⟨_, List.mem_singleton_self _, ?_⟩
      cases hrun : lookupRun lowerRuns c with
      | none => exact .inl hc
      | some d =>
          refine (lookupRun_lowerRuns (Nat.le_of_not_lt hhigh) hrun).imp_left fun hd => ?_
          exact decide_eq_false (Nat.not_lt.mpr hd)

theorem lowerFrom_of_isAscii {t : Text} (h : ∀ c ∈ t, c.isAscii = true) (before : Text) :
    lowerFrom before t = fold t := by
  induction t generalizing before with
  | nil => rfl
  | cons c t ih =>
      obtain ⟨hc, ht⟩ := List.forall_mem_cons.mp h
      rw [lowerFrom, ih ht, lowerAt, if_pos (of_decide_eq_true hc)]
      rfl

theorem isAscii_of_lowerFrom {before t : Text}
    (h : ∀ c ∈ lowerFrom before t, c.isAscii = true ∧ c ≠ .char 'k') :
    ∀ c ∈ t, c.isAscii = true := by
  induction t generalizing before with
  | nil => exact fun c hc => absurd hc List.not_mem_nil
  | cons c t ih =>
      rw [lowerFrom, List.forall_mem_append] at h
      refine List.forall_mem_cons.mpr ⟨?_, ih h.2⟩
      by_contra hc
      obtain ⟨d, hd, hother⟩ := exists_mem_lowerAt (Bool.eq_false_iff.mpr hc) before t
      obtain ⟨hascii, hk⟩ := h.1 d hd
      rcases hother with hnot | hsign
      · rw [hascii] at hnot
        cases hnot
      · exact hk hsign

/-- The texts with a given lower case are those that differ from it in the case of ASCII letters
only, if it is an ASCII text without a `k`. -/
theorem lower_eq_iff {t u : Text} (hu : ∀ c ∈ u, c.isAscii = true ∧ c ≠ .char 'k') :
    lower t = u ↔ fold t = u := by
  constructor
  · rintro rfl
    exact (lowerFrom_of_isAscii (isAscii_of_lowerFrom hu) []).symm
  · rintro rfl
    refine lowerFrom_of_isAscii (fun c hc => ?_) []
    rw [← c.isAscii_asciiLower]
    exact (hu _ (List.mem_map_of_mem hc)).1

end Lower

namespace Utf8

def foldByte (b : UInt8) : UInt8 :=
  if 0x41 ≤ b ∧ b ≤ 0x5A then b + 0x20 else b

/-- A unit of the decoder with an ASCII letter in lower case. -/
def foldUnit (u : Option Char) : Option Char :=
  u.map Char.toLower

/-- A decoder inside a character waits for a byte that is no ASCII character. -/
def Waits : Progress → Prop
  | .idle => True
  | .within _ _ low _ => 0x80 ≤ low

theorem foldByte_of_le {b : UInt8} (h : 0x80 ≤ b.toNat) : foldByte b = b := by
  refine if_neg fun hletter => ?_
  have hle : b.toNat ≤ 0x5A := UInt8.le_iff_toNat_le.mp hletter.2
  omega

/-- A letter is a whole character in both cases. -/
theorem foldByte_spec {b : UInt8} (h : b.toNat < 0x80) :
    (foldByte b).toNat < 0x80 ∧
      (Char.ofNat (foldByte b).toNat).toLower = (Char.ofNat b.toNat).toLower := by
  have hall : ∀ n : Fin 128, (foldByte (UInt8.ofNat n)).toNat < 0x80 ∧
      (Char.ofNat (foldByte (UInt8.ofNat n)).toNat).toLower =
        (Char.ofNat (UInt8.ofNat n).toNat).toLower := by
    decide
  have hb := hall ⟨b.toNat, h⟩
  rwa [UInt8.ofNat_toNat] at hb

theorem begin_waits (n : Nat) : Waits (begin n).2 := by
  unfold begin
  repeat' split
  all_goals simp [Waits]

theorem step_waits {p : Progress} (h : Waits p) (n : Nat) : Waits (step p n).2 := by
  cases p with
  | idle => exact begin_waits n
  | within left value low high =>
      dsimp only [step]
      split
      · cases left with
        | zero => trivial
        | succ left => exact Nat.le_refl 0x80
      · exact begin_waits n

theorem begin_foldByte {b : UInt8} (h : b.toNat < 0x80) :
    (begin (foldByte b).toNat).2 = (begin b.toNat).2 ∧
      (begin (foldByte b).toNat).1.map foldUnit = (begin b.toNat).1.map foldUnit := by
  obtain ⟨hlow, hsame⟩ := foldByte_spec h
  unfold begin
  rw [if_pos h, if_pos hlow]
  simp [foldUnit, hsame]

theorem step_foldByte {p : Progress} (hp : Waits p) (b : UInt8) :
    (step p (foldByte b).toNat).2 = (step p b.toNat).2 ∧
      (step p (foldByte b).toNat).1.map foldUnit = (step p b.toNat).1.map foldUnit := by
  by_cases hb : b.toNat < 0x80
  · cases p with
    | idle => exact begin_foldByte hb
    | within left value low high =>
        -- A letter ends the character in both cases, and is looked at again.
        have hends {n : Nat} (hn : n < 0x80) : (decide (low ≤ n) && decide (n ≤ high)) = false := by
          have hlow : ¬ low ≤ n := Nat.not_le.mpr (Nat.lt_of_lt_of_le hn hp)
          simp [hlow]
        obtain ⟨hnext, hunits⟩ := begin_foldByte hb
        unfold step
        simp only [hends hb, hends (foldByte_spec hb).1, Bool.false_eq_true, if_false]
        exact ⟨hnext, by rw [List.map_cons, List.map_cons, hunits]⟩
  · rw [foldByte_of_le (Nat.le_of_not_lt hb)]
    exact ⟨rfl, rfl⟩

theorem foldl_take_foldByte (bytes : Bytes) {found found' : List (Option Char)} {p : Progress}
    (hp : Waits p) (hfound : found'.map foldUnit = found.map foldUnit) :
    ((bytes.map foldByte).foldl take (found', p)).2 = (bytes.foldl take (found, p)).2 ∧
      ((bytes.map foldByte).foldl take (found', p)).1.map foldUnit =
        (bytes.foldl take (found, p)).1.map foldUnit := by
  induction bytes generalizing found found' p with
  | nil => exact ⟨rfl, hfound⟩
  | cons b bytes ih =>
      obtain ⟨hnext, hunits⟩ := step_foldByte hp b
      rw [List.map_cons, List.foldl_cons, List.foldl_cons]
      unfold take
      dsimp only
      rw [hnext]
      apply ih (step_waits hp _)
      rw [List.map_append, List.map_append, List.map_reverse, List.map_reverse, hunits, hfound]

theorem units_foldByte (bytes : Bytes) :
    (units (bytes.map foldByte)).map foldUnit = (units bytes).map foldUnit := by
  obtain ⟨hlast, hfound⟩ := @foldl_take_foldByte bytes [] [] .idle trivial rfl
  unfold units
  rcases hread : bytes.foldl take ([], .idle) with ⟨found, last⟩
  rcases hread' : (bytes.map foldByte).foldl take ([], .idle) with ⟨found', last'⟩
  rw [hread, hread'] at hlast hfound
  dsimp only at hlast hfound
  cases hlast
  cases last <;> simp [List.map_reverse, hfound]

/-- Reading bytes as text does not depend on the case of the letters among them, but for the
case of the letters that come out. -/
theorem decodeLenient_foldByte (bytes : Bytes) :
    fold (decodeLenient (bytes.map foldByte)) = fold (decodeLenient bytes) := by
  have hpoints (us : List (Option Char)) :
      fold (us.map fun u => CodePoint.char (u.getD replacement)) =
        (us.map foldUnit).map fun u => CodePoint.char (u.getD replacement.toLower) := by
    unfold fold
    rw [List.map_map, List.map_map]
    refine List.map_congr_left fun u _ => ?_
    cases u <;> rfl
  unfold decodeLenient
  rw [hpoints, hpoints, units_foldByte]

end Utf8

end Text

namespace Url

theorem hexPair?_asciiLower (a b : CodePoint) :
    hexPair? a.asciiLower b.asciiLower = hexPair? a b := by
  unfold hexPair?
  rw [a.hexValue?_asciiLower, b.hexValue?_asciiLower]

theorem encodePoint_asciiLower (c : CodePoint) :
    (Text.Utf8.encodePoint c.asciiLower).map Text.Utf8.foldByte =
      (Text.Utf8.encodePoint c).map Text.Utf8.foldByte :=
  CodePoint.apply_asciiLower (f := fun c => (Text.Utf8.encodePoint c).map Text.Utf8.foldByte)
    (by decide) c

/-- The digits of an escape may be of both cases, and the bytes of other letters keep their
case. -/
theorem percentDecode_fold (t : Text) :
    (percentDecode (Text.fold t)).map Text.Utf8.foldByte =
      (percentDecode t).map Text.Utf8.foldByte := by
  have hpercent (c : CodePoint) : c.asciiLower = .char '%' ↔ c = .char '%' :=
    CodePoint.asciiLower_eq_iff (by decide)
  fun_induction percentDecode t with
  | case1 a b rest n hpair ih =>
      have hpair' : hexPair? a.asciiLower b.asciiLower = some n := by
        rw [hexPair?_asciiLower, hpair]
      simp only [Text.fold_cons, (hpercent _).mpr rfl]
      rw [percentDecode, hpair']
      dsimp only
      rw [List.map_cons, List.map_cons, ih]
  | case2 a b rest hpair ih =>
      have hpair' : hexPair? a.asciiLower b.asciiLower = none := by
        rw [hexPair?_asciiLower, hpair]
      simp only [Text.fold_cons, (hpercent _).mpr rfl] at ih ⊢
      rw [percentDecode, hpair']
      dsimp only
      rw [List.map_append, List.map_append, ih]
  | case3 c rest hplain ih =>
      rw [Text.fold_cons, percentDecode, List.map_append, List.map_append, encodePoint_asciiLower,
        ih]
      -- What is no escape does not become one.
      intro a b more hc hmore
      cases rest with
      | nil => cases hmore
      | cons a' rest =>
          cases rest with
          | nil => cases hmore
          | cons b' rest => exact hplain a' b' rest ((hpercent c).mp hc) rfl
  | case4 => rfl

theorem splitBy_map {α β : Type} {r : α → α → Bool} {r' : β → β → Bool} {f : α → β}
    (h : ∀ a b, r' (f a) (f b) = r a b) (xs : List α) :
    (xs.map f).splitBy r' = (xs.splitBy r).map (List.map f) := by
  rw [List.splitBy_eq_iff]
  obtain ⟨hflat, hnil, hchain, hcut⟩ := List.splitBy_eq_iff.mp (rfl : xs.splitBy r = xs.splitBy r)
  refine ⟨?_, ?_, ?_, ?_⟩
  · rw [← List.map_flatten, ← hflat]
  · simp
  · intro m hm
    obtain ⟨stretch, hstretch, rfl⟩ := List.mem_map.mp hm
    rw [List.isChain_map]
    simpa only [h] using hchain stretch hstretch
  · rw [List.isChain_map]
    refine hcut.imp fun a b hab => ?_
    obtain ⟨ha, hb, hlast⟩ := hab
    refine ⟨by simpa using ha, by simpa using hb, ?_⟩
    rw [List.getLast_map, List.head_map, h, hlast]

theorem unescape_fold (t : Text) : Text.fold (unescape (Text.fold t)) = Text.fold (unescape t) := by
  have hstretch (s : Text) : (Text.fold s).all CodePoint.isAscii = s.all CodePoint.isAscii := by
    unfold Text.fold
    rw [List.all_map]
    simp only [Function.comp_def, CodePoint.isAscii_asciiLower]
  have hfold {α : Type} (xs : List α) (g : α → Text) :
      Text.fold (xs.flatMap g) = xs.flatMap fun x => Text.fold (g x) :=
    List.map_flatMap
  have hsplit : (Text.fold t).splitBy (fun a b => a.isAscii == b.isAscii) =
      (t.splitBy fun a b => a.isAscii == b.isAscii).map Text.fold :=
    splitBy_map (fun a b => by simp) t
  unfold unescape
  rw [hsplit, hfold, hfold, List.flatMap_map]
  refine congrArg List.flatten (List.map_congr_left fun s _ => ?_)
  rw [hstretch]
  split
  · rw [← Text.Utf8.decodeLenient_foldByte, percentDecode_fold, Text.Utf8.decodeLenient_foldByte]
  · exact Text.fold_fold s

theorem decodeField_fold (t : Text) :
    Text.fold (decodeField (Text.fold t)) = Text.fold (decodeField t) := by
  have hspaced :
      (Text.fold t).map (fun c => if c = .char '+' then CodePoint.char ' ' else c) =
        Text.fold (t.map fun c => if c = .char '+' then CodePoint.char ' ' else c) := by
    unfold Text.fold
    rw [List.map_map, List.map_map]
    refine List.map_congr_left fun c _ => ?_
    simp only [Function.comp_apply]
    have hplus : c.asciiLower = .char '+' ↔ c = .char '+' :=
      CodePoint.asciiLower_eq_iff (by decide)
    by_cases hc : c = .char '+'
    · rw [if_pos hc, if_pos (hplus.mpr hc)]
      rfl
    · rw [if_neg hc, if_neg (mt hplus.mp hc)]
  unfold decodeField
  rw [hspaced, unescape_fold]

end Url

end DataLake
