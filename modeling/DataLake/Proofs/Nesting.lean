import DataLake.Json.Reader
import Mathlib.Data.List.Infix

/-!
Nesting. Reading a value takes it from the front of the text and leaves the rest, and it goes
one level deeper at an opening bracket only. So however many levels there are, a text cannot be
nested too deep without more opening brackets than that, and one of brackets alone is as soon as
it has more.
-/

namespace DataLake.Json

section Rest

variable {t rest : Text}

theorem skipSpace_suffix (t : Text) : skipSpace t <:+ t :=
  List.dropWhile_suffix _

theorem suffix_of_skipSpace {c : CodePoint} (h : skipSpace t = c :: rest) : rest <:+ t := by
  have hskip := skipSpace_suffix t
  rw [h] at hskip
  exact (List.suffix_cons c rest).trans hskip

theorem readUnits_suffix {units found : List Nat} (h : readUnits units t = some (found, rest)) :
    rest <:+ t := by
  fun_induction readUnits units t with
  | case1 => cases h
  | case2 units a b c d later unit hunit ih =>
      exact (ih h).trans ⟨[.char '\\', .char 'u', a, b, c, d], rfl⟩
  | case3 => cases h
  | case4 units c later _ unit hunit ih => exact (ih h).trans ⟨[.char '\\', c], rfl⟩
  | case5 => cases h
  | case6 units later =>
      cases h
      exact List.suffix_cons _ _
  | case7 => cases h
  | case8 units c later _ _ _ _ ih => exact (ih h).trans (List.suffix_cons c later)

theorem readString_suffix {s : Text} (h : readString t = .ok (s, rest)) : rest <:+ t := by
  unfold readString at h
  split at h
  · next hunits =>
    cases h
    exact readUnits_suffix hunits
  · cases h

theorem readString_error {e : ReadError} (h : readString t = .error e) : e = .malformed := by
  unfold readString at h
  split at h <;> cases h
  rfl

theorem spanDigits_suffix (t : Text) : (spanDigits t).2 <:+ t :=
  List.dropWhile_suffix _

theorem readFraction_suffix (t : Text) : (readFraction t).2 <:+ t := by
  unfold readFraction
  split
  · next later =>
    split
    · exact List.suffix_rfl
    · next digits rest _ hspan =>
      have hrest : rest <:+ later := by
        have h := spanDigits_suffix later
        rwa [hspan] at h
      exact hrest.trans (List.suffix_cons _ _)
  · exact List.suffix_rfl

theorem readExponent_suffix (t : Text) : (readExponent t).2 <:+ t := by
  have hdigits {signed digits rest : Text} (hsigned : signed <:+ t)
      (hspan : spanDigits signed = (digits, rest)) : rest <:+ t := by
    have hrest := spanDigits_suffix signed
    rw [hspan] at hrest
    exact hrest.trans hsigned
  unfold readExponent
  dsimp only
  split
  · next c later =>
    have hlater := List.suffix_cons c later
    split
    · -- There may be a sign in front of the digits, and without digits the text is left as it is.
      split
      · split
        · exact List.suffix_rfl
        · next hspan => exact hdigits ((List.suffix_cons _ _).trans hlater) hspan
      · split
        · exact List.suffix_rfl
        · next hspan => exact hdigits ((List.suffix_cons _ _).trans hlater) hspan
      · split
        · exact List.suffix_rfl
        · next hspan => exact hdigits hlater hspan
    · exact List.suffix_rfl
  · exact List.suffix_rfl

theorem readNumber_suffix {negative : Bool} {value : Json}
    (h : readNumber negative t = some (value, rest)) : rest <:+ t := by
  unfold readNumber at h
  split at h
  next whole afterWhole hwhole =>
  have hleft : afterWhole <:+ t := by
    split at hwhole
    · cases hwhole
      exact List.suffix_cons _ _
    · have hspan := spanDigits_suffix t
      rwa [hwhole] at hspan
  split at h
  · cases h
  · split at h
    next fraction afterFraction hfraction =>
    have hleft : afterFraction <:+ t := by
      have hspan := readFraction_suffix afterWhole
      rw [hfraction] at hspan
      exact hspan.trans hleft
    have hend (power : Option Int) (last : Text)
        (hexponent : readExponent afterFraction = (power, last)) : last <:+ t := by
      have hspan := readExponent_suffix afterFraction
      rw [hexponent] at hspan
      exact hspan.trans hleft
    split at h
    · next last hexponent =>
      split at h
      · split at h
        · cases h
        · cases h
          exact hend _ _ hexponent
      · cases h
        exact hend _ _ hexponent
    · next power last hexponent =>
      cases h
      exact hend _ _ hexponent

theorem readWord_suffix {value : Json} (h : readWord t = some (value, rest)) : rest <:+ t := by
  obtain ⟨⟨word, found⟩, -, hword⟩ := List.exists_of_findSome?_eq_some h
  obtain ⟨later, hlater, heq⟩ := Option.map_eq_some_iff.mp hword
  cases heq
  exact ⟨word, List.append_eq_of_isPrefixOf?_eq_some hlater⟩

end Rest

def isOpening (c : CodePoint) : Bool :=
  c = '[' || c = '\x7b'

/-- The number of opening brackets, those inside of strings included. -/
def openings (t : Text) : Nat :=
  t.countP isOpening

theorem openings_mono {t u : Text} (h : u <:+ t) : openings u ≤ openings t :=
  h.sublist.countP_le

/-- What reading with so many levels left may come to: a value leaves the end of the text, and
only opening brackets use the levels up. -/
inductive Reads (depth : Nat) (t : Text) : Except ReadError (Json × Text) → Prop where
  | value (v : Json) (rest : Text) (hrest : rest <:+ t) : Reads depth t (.ok (v, rest))
  | malformed : Reads depth t (.error .malformed)
  | tooDeep (hopen : depth < openings t) : Reads depth t (.error .tooDeep)

namespace Reads

variable {depth : Nat} {t u : Text} {result : Except ReadError (Json × Text)}

theorem of_suffix (h : Reads depth u result) (hu : u <:+ t) : Reads depth t result := by
  cases h with
  | value v rest hrest => exact .value v rest (hrest.trans hu)
  | malformed => exact .malformed
  | tooDeep hopen => exact .tooDeep (Nat.lt_of_lt_of_le hopen (openings_mono hu))

/-- An opening bracket leads one level deeper. -/
theorem opened {c : CodePoint} (hc : isOpening c = true) (h : Reads depth t result) :
    Reads (depth + 1) (c :: t) result := by
  cases h with
  | value v rest hrest => exact .value v rest (hrest.trans (List.suffix_cons c t))
  | malformed => exact .malformed
  | tooDeep hopen =>
      have hcount : openings (c :: t) = openings t + 1 := List.countP_cons_of_pos hc
      exact .tooDeep (by omega)

theorem unopened {c : CodePoint} (hc : isOpening c = true) (t : Text) :
    Reads 0 (c :: t) (.error .tooDeep) := by
  have hcount : openings (c :: t) = openings t + 1 := List.countP_cons_of_pos hc
  exact .tooDeep (by omega)

end Reads

section Steps

variable {fuel : Nat}

theorem readValue_step
    (hitems : ∀ depth found t, Reads depth t (readItems depth fuel found t))
    (hfields : ∀ depth found t, Reads depth t (readFields depth fuel found t)) (depth : Nat)
    (t : Text) : Reads depth t (readValue depth (fuel + 1) t) := by
  cases t with
  | nil => exact .malformed
  | cons c later =>
      unfold readValue
      dsimp only
      have hlater := List.suffix_cons c later
      split
      · split
        · next e hstring =>
          rw [readString_error hstring]
          exact .malformed
        · next s rest hstring => exact .value _ _ ((readString_suffix hstring).trans hlater)
      · split
        · next hbracket =>
          have hc : isOpening c = true := by rw [hbracket]; rfl
          cases depth with
          | zero => exact .unopened hc later
          | succ depth =>
              dsimp only
              apply Reads.opened hc
              split
              · next rest hclosed => exact .value _ rest (suffix_of_skipSpace hclosed)
              · exact (hitems depth [] _).of_suffix (skipSpace_suffix later)
        · split
          · next hbrace =>
            have hc : isOpening c = true := by rw [hbrace]; rfl
            cases depth with
            | zero => exact .unopened hc later
            | succ depth =>
                dsimp only
                apply Reads.opened hc
                split
                · next rest hclosed => exact .value _ rest (suffix_of_skipSpace hclosed)
                · exact (hfields depth [] _).of_suffix (skipSpace_suffix later)
          · split
            · next found hfound =>
              obtain ⟨v, rest⟩ := found
              apply Reads.value
              rcases Option.or_eq_some_iff.mp hfound with hword | ⟨-, hnumber⟩
              · exact readWord_suffix hword
              · split at hnumber
                · exact (readNumber_suffix hnumber).trans hlater
                · exact readNumber_suffix hnumber
            · exact .malformed

theorem readItems_step
    (hvalue : ∀ depth t, Reads depth t (readValue depth fuel t))
    (hitems : ∀ depth found t, Reads depth t (readItems depth fuel found t)) (depth : Nat)
    (found : List Json) (t : Text) : Reads depth t (readItems depth (fuel + 1) found t) := by
  have hitem := hvalue depth t
  unfold readItems
  split
  · next e hread =>
    rw [hread] at hitem
    cases hitem with
    | malformed => exact .malformed
    | tooDeep hopen => exact .tooDeep hopen
  · next item rest hread =>
    rw [hread] at hitem
    cases hitem with
    | value _ _ hrest =>
        split
        · next more hcomma =>
          have hmore := (suffix_of_skipSpace hcomma).trans hrest
          exact (hitems depth _ _).of_suffix ((skipSpace_suffix more).trans hmore)
        · next more hclosed => exact .value _ more ((suffix_of_skipSpace hclosed).trans hrest)
        · exact .malformed

theorem readFields_step
    (hvalue : ∀ depth t, Reads depth t (readValue depth fuel t))
    (hfields : ∀ depth found t, Reads depth t (readFields depth fuel found t)) (depth : Nat)
    (found : List (Text × Json)) (t : Text) : Reads depth t (readFields depth (fuel + 1) found t) := by
  unfold readFields
  split
  · next quoted =>
    split
    · next e hkey =>
      rw [readString_error hkey]
      exact .malformed
    · next key afterKey hkey =>
      have hafter : afterKey <:+ .char '\x22' :: quoted :=
        (readString_suffix hkey).trans (List.suffix_cons _ quoted)
      split
      · next afterColon hcolon =>
        have hstart := (skipSpace_suffix afterColon).trans ((suffix_of_skipSpace hcolon).trans hafter)
        have hfield := (hvalue depth _).of_suffix hstart
        split
        · next e hread =>
          rw [hread] at hfield
          cases hfield with
          | malformed => exact .malformed
          | tooDeep hopen => exact .tooDeep hopen
        · next v rest hread =>
          rw [hread] at hfield
          cases hfield with
          | value _ _ hrest =>
              dsimp only
              split
              · next more hcomma =>
                have hmore := (suffix_of_skipSpace hcomma).trans hrest
                exact (hfields depth _ _).of_suffix ((skipSpace_suffix more).trans hmore)
              · next more hclosed => exact .value _ more ((suffix_of_skipSpace hclosed).trans hrest)
              · exact .malformed
      · exact .malformed
  · exact .malformed

/-- Whatever the number of steps, reading keeps to its levels. -/
theorem reads (fuel : Nat) :
    (∀ depth t, Reads depth t (readValue depth fuel t)) ∧
      (∀ depth found t, Reads depth t (readItems depth fuel found t)) ∧
        ∀ depth found t, Reads depth t (readFields depth fuel found t) := by
  induction fuel with
  | zero => exact ⟨fun _ _ => .malformed, fun _ _ _ => .malformed, fun _ _ _ => .malformed⟩
  | succ fuel ih =>
      obtain ⟨hvalue, hitems, hfields⟩ := ih
      exact ⟨readValue_step hitems hfields, readItems_step hvalue hitems,
        readFields_step hvalue hfields⟩

end Steps

/-- A body that is nested too deep has more opening brackets than there are levels. -/
theorem openings_of_tooDeep {bytes : Bytes} {depth : Nat}
    (h : readBytes bytes depth = .error .tooDeep) :
    ∃ t, Text.Utf8.decode? bytes = some t ∧ depth < openings t := by
  unfold readBytes at h
  split at h
  · next t hdecoded =>
    refine ⟨t, hdecoded, ?_⟩
    have hreads := ((reads (2 * t.length + 1)).1 depth (skipSpace t)).of_suffix (skipSpace_suffix t)
    unfold read at h
    split at h
    · next e hread =>
      rw [hread] at hreads
      cases h
      cases hreads with
      | tooDeep hopen => exact hopen
    · split at h <;> cases h
  · cases h

/-- Reading stops at the first bracket beyond the greatest depth. -/
theorem readValue_brackets (depth n fuel : Nat) (hn : depth < n) (hfuel : 2 * depth < fuel) :
    readValue depth fuel (List.replicate n (.char '[')) = .error .tooDeep := by
  induction depth generalizing n fuel with
  | zero =>
      obtain ⟨n, rfl⟩ : ∃ m, n = m + 1 := ⟨n - 1, by omega⟩
      obtain ⟨fuel, rfl⟩ : ∃ m, fuel = m + 1 := ⟨fuel - 1, by omega⟩
      rfl
  | succ depth ih =>
      obtain ⟨n, rfl⟩ : ∃ m, n = m + 2 := ⟨n - 2, by omega⟩
      obtain ⟨fuel, rfl⟩ : ∃ m, fuel = m + 2 := ⟨fuel - 2, by omega⟩
      have hrest := ih (n + 1) fuel (by omega) (by omega)
      have hitems : readItems depth (fuel + 1) [] (List.replicate (n + 1) (.char '[')) =
          .error .tooDeep := by
        rw [readItems, hrest]
      exact hitems

theorem readBytes_brackets {depth n : Nat} (hn : depth < n) :
    readBytes (List.replicate n 91) depth = .error .tooDeep := by
  have hunits (found : List (Option Char)) (m : Nat) :
      (List.replicate m (91 : UInt8)).foldl Text.Utf8.take (found, .idle) =
        (List.replicate m (some '[') ++ found, .idle) := by
    induction m generalizing found with
    | zero => rfl
    | succ m ih =>
        rw [List.replicate_succ, List.foldl_cons]
        have htake : Text.Utf8.take (found, .idle) 91 = (some '[' :: found, .idle) := rfl
        rw [htake, ih, List.replicate_succ', List.append_assoc]
        rfl
  have hdecoded : Text.Utf8.decode? (List.replicate n 91) = some (List.replicate n (.char '[')) := by
    unfold Text.Utf8.decode? Text.Utf8.units
    rw [hunits]
    simp
  have hskipped : skipSpace (List.replicate n (.char '[')) = List.replicate n (.char '[') := by
    cases n with
    | zero => rfl
    | succ n => rfl
  unfold readBytes read
  rw [hdecoded]
  dsimp only
  rw [hskipped, readValue_brackets depth n _ hn (by simp; omega)]

end DataLake.Json
