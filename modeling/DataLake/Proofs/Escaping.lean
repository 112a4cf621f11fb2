import DataLake.Proofs.Segments
import DataLake.Proofs.Utf8
import Mathlib.Data.List.SplitBy

/-!
Escapes in URLs. Encoding gives tidy texts: characters that are allowed, and
escapes in upper case of bytes that stand for no unreserved character. Every
normal form that preparing a URL applies leaves a tidy text as it is, and
decoding it gives back what was encoded.
-/

namespace DataLake.Url

private theorem upperHexDigit_spec (n : Nat) (h : n < 16) :
    (upperHexDigit n).hexValue? = some n ∧ (upperHexDigit n).asciiUpper = upperHexDigit n ∧
      Text.isAlphanumeric (upperHexDigit n) = true ∧ isUnreserved (upperHexDigit n) = true ∧
      upperHexDigit n ≠ .char '%' := by
  have hall : ∀ k : Fin 16, (upperHexDigit k).hexValue? = some k.val ∧
      (upperHexDigit k).asciiUpper = upperHexDigit k ∧
      Text.isAlphanumeric (upperHexDigit k) = true ∧ isUnreserved (upperHexDigit k) = true ∧
      upperHexDigit k ≠ .char '%' := by decide
  exact hall ⟨n, h⟩

private theorem digits_lt (b : UInt8) :
    b.toNat / 16 < 16 ∧ b.toNat % 16 < 16 ∧ 16 * (b.toNat / 16) + b.toNat % 16 = b.toNat := by
  have hb := b.toNat_lt
  omega

theorem hexPair?_digits (b : UInt8) :
    hexPair? (upperHexDigit (b.toNat / 16)) (upperHexDigit (b.toNat % 16)) = some b.toNat := by
  obtain ⟨hhigh, hlow, hvalue⟩ := digits_lt b
  unfold hexPair?
  rw [(upperHexDigit_spec _ hhigh).1, (upperHexDigit_spec _ hlow).1]
  simp only [hvalue]

private theorem isAsciiAlphanum_lt {c : CodePoint} (h : c.isAsciiAlphanum = true) :
    c.toNat < 0x80 := by
  cases c with
  | half n => cases h
  | char c =>
      have hranges : CodePoint.isAsciiAlphanum (.char c) =
          ((decide (65 ≤ c.val ∧ c.val ≤ 90) ||
            (decide (97 ≤ c.val) && decide (c.val ≤ 122))) ||
            (decide (48 ≤ c.val) && decide (c.val ≤ 57))) := rfl
      rw [hranges] at h
      simp only [Bool.or_eq_true, Bool.and_eq_true, decide_eq_true_eq,
        UInt32.le_iff_toNat_le] at h
      change ((65 ≤ c.toNat ∧ c.toNat ≤ 90) ∨ (97 ≤ c.toNat ∧ c.toNat ≤ 122)) ∨
        (48 ≤ c.toNat ∧ c.toNat ≤ 57) at h
      change c.toNat < 0x80
      omega

/-- The unreserved characters are ASCII, and none of them is a percent sign. -/
theorem isUnreserved_lt {c : CodePoint} (h : isUnreserved c = true) : c.toNat < 0x80 := by
  simp only [isUnreserved, Bool.or_eq_true, beq_iff_eq] at h
  rcases h with (((h | rfl) | rfl) | rfl) | rfl
  · exact isAsciiAlphanum_lt h
  all_goals decide

/-- A text of allowed characters and of escapes of bytes that need one, as
encoding writes them. -/
inductive Tidy (allowed : CodePoint → Bool) : Text → Prop where
  | nil : Tidy allowed []
  | char (c : CodePoint) {t : Text} (hc : allowed c = true) (hpercent : c ≠ .char '%')
      (ht : Tidy allowed t) : Tidy allowed (c :: t)
  | escape (b : UInt8) {t : Text} (hb : isUnreserved (.ofNat b.toNat) = false)
      (ht : Tidy allowed t) : Tidy allowed (escapeByte b ++ t)

variable {allowed : CodePoint → Bool}

theorem Tidy.append {t u : Text} (ht : Tidy allowed t) (hu : Tidy allowed u) :
    Tidy allowed (t ++ u) := by
  induction ht with
  | nil => exact hu
  | char c hc hpercent _ ih => exact .char c hc hpercent ih
  | escape b hb _ ih =>
      rw [List.append_assoc]
      exact .escape b hb ih

theorem Tidy.mono {wider : CodePoint → Bool} {t : Text} (h : Tidy allowed t)
    (hwider : ∀ c, allowed c = true → wider c = true) : Tidy wider t := by
  induction h with
  | nil => exact .nil
  | char c hc hpercent _ ih => exact .char c (hwider c hc) hpercent ih
  | escape b hb _ ih => exact .escape b hb ih

theorem Tidy.of_cons {c : CodePoint} {t : Text} (hc : c ≠ .char '%')
    (h : Tidy allowed (c :: t)) : Tidy allowed t := by
  generalize hwhole : c :: t = whole at h
  cases h with
  | nil => cases hwhole
  | char d _ _ ht =>
      cases hwhole
      exact ht
  | escape b =>
      cases hwhole
      exact absurd rfl hc

theorem tidy_of_all {t : Text} (h : ∀ c ∈ t, allowed c = true ∧ c ≠ .char '%') :
    Tidy allowed t := by
  induction t with
  | nil => exact .nil
  | cons c t ih =>
      obtain ⟨hc, hpercent⟩ := h c List.mem_cons_self
      exact .char c hc hpercent (ih fun d hd => h d (List.mem_cons_of_mem c hd))

private theorem mem_escapeByte {b : UInt8} {c : CodePoint} (h : c ∈ escapeByte b) :
    c = .char '%' ∨ isUnreserved c = true := by
  obtain ⟨hhigh, hlow, _⟩ := digits_lt b
  simp only [escapeByte, List.mem_cons, List.not_mem_nil, or_false] at h
  rcases h with rfl | rfl | rfl
  · exact .inl rfl
  · exact .inr (upperHexDigit_spec _ hhigh).2.2.2.1
  · exact .inr (upperHexDigit_spec _ hlow).2.2.2.1

/-- The characters of a tidy text: allowed ones, percent signs, and digits. -/
theorem Tidy.mem {t : Text} (h : Tidy allowed t) {c : CodePoint} (hc : c ∈ t) :
    allowed c = true ∨ c = .char '%' ∨ isUnreserved c = true := by
  induction h with
  | nil => cases hc
  | char d hd _ _ ih =>
      rcases List.mem_cons.mp hc with rfl | hc
      · exact .inl hd
      · exact ih hc
  | escape b hb _ ih =>
      rcases List.mem_append.mp hc with hc | hc
      · exact .inr (mem_escapeByte hc)
      · exact ih hc

private theorem toNat_lt (c : CodePoint) : c.toNat < 0x110000 := by
  cases c with
  | char c =>
      have hvalid := c.valid
      simp only [UInt32.isValidChar, Nat.isValidChar] at hvalid
      change c.val.toNat < _
      omega
  | half n =>
      change 0xD800 + n.val < _
      omega

private theorem le_of_mem_encodePoint {c : CodePoint} (hc : 0x80 ≤ c.toNat) {b : UInt8}
    (hb : b ∈ Text.Utf8.encodePoint c) : 0x80 ≤ b.toNat := by
  have hlt := toNat_lt c
  have hbyte {n : Nat} (hlow : 0x80 ≤ n) (hhigh : n < 0x100) : 0x80 ≤ (UInt8.ofNat n).toNat := by
    rwa [UInt8.toNat_ofNat_of_lt' hhigh]
  unfold Text.Utf8.encodePoint at hb
  dsimp only at hb
  rw [if_neg (by omega)] at hb
  split at hb
  · simp only [List.mem_cons, List.not_mem_nil, or_false] at hb
    rcases hb with rfl | rfl <;> exact hbyte (by omega) (by omega)
  · split at hb
    · simp only [List.mem_cons, List.not_mem_nil, or_false] at hb
      rcases hb with rfl | rfl | rfl <;> exact hbyte (by omega) (by omega)
    · simp only [List.mem_cons, List.not_mem_nil, or_false] at hb
      rcases hb with rfl | rfl | rfl | rfl <;> exact hbyte (by omega) (by omega)

private theorem isUnreserved_byte {c : CodePoint} (hc : isUnreserved c = false) {b : UInt8}
    (hb : b ∈ Text.Utf8.encodePoint c) : isUnreserved (.ofNat b.toNat) = false := by
  by_cases hascii : c.toNat < 0x80
  · unfold Text.Utf8.encodePoint at hb
    dsimp only at hb
    rw [if_pos hascii, List.mem_singleton] at hb
    have hsize : c.toNat < UInt8.size := Nat.lt_trans hascii (by decide)
    rw [hb, UInt8.toNat_ofNat_of_lt' hsize, CodePoint.ofNat_toNat, hc]
  · cases hbyte : isUnreserved (.ofNat b.toNat) with
    | false => rfl
    | true =>
        have hlt := isUnreserved_lt hbyte
        rw [CodePoint.toNat_ofNat (Nat.lt_trans b.toNat_lt (by decide))] at hlt
        have hle := le_of_mem_encodePoint (by omega) hb
        omega

theorem escapePoint_tidy {c : CodePoint} (hc : isUnreserved c = false) :
    Tidy allowed (escapePoint c) := by
  have hescapes (bytes : Bytes) (h : ∀ b ∈ bytes, isUnreserved (.ofNat b.toNat) = false) :
      Tidy allowed (bytes.flatMap escapeByte) := by
    induction bytes with
    | nil => exact .nil
    | cons b bytes ih =>
        exact .escape b (h b List.mem_cons_self) (ih fun d hd => h d (List.mem_cons_of_mem b hd))
  exact hescapes _ fun b hb => isUnreserved_byte hc hb

theorem percentEncode_tidy (hunreserved : ∀ c, isUnreserved c = true → allowed c = true)
    (hpercent : allowed (.char '%') = false) (t : Text) : Tidy allowed (percentEncode allowed t) := by
  induction t with
  | nil => exact .nil
  | cons c t ih =>
      unfold percentEncode
      rw [List.flatMap_cons]
      refine Tidy.append ?_ ih
      split
      · next hc => exact .char c hc (fun h => by rw [h, hpercent] at hc; cases hc) .nil
      · next hc =>
        apply escapePoint_tidy
        cases hc' : isUnreserved c with
        | false => rfl
        | true => exact absurd (hunreserved c hc') hc

/-- The characters of an encoded text: allowed ones of the text, percent signs, and
digits. -/
theorem mem_percentEncode {t : Text} {c : CodePoint} (h : c ∈ percentEncode allowed t) :
    (c ∈ t ∧ allowed c = true) ∨ c = .char '%' ∨ isUnreserved c = true := by
  unfold percentEncode at h
  obtain ⟨d, hd, hc⟩ := List.mem_flatMap.mp h
  split at hc
  · next hallowed =>
    rw [List.mem_singleton.mp hc]
    exact .inl ⟨hd, hallowed⟩
  · obtain ⟨b, _, hb⟩ := List.mem_flatMap.mp hc
    exact .inr (mem_escapeByte hb)

theorem Tidy.upperEscapes {t : Text} (h : Tidy allowed t) : upperEscapes t = t := by
  induction h with
  | nil => rfl
  | @char c t _ hpercent _ ih =>
      unfold Url.upperEscapes
      split
      · next heq =>
        cases heq
        exact absurd rfl hpercent
      · next heq =>
        cases heq
        rw [ih]
      · next heq => cases heq
  | escape b _ _ ih =>
      obtain ⟨hhigh, hlow, _⟩ := digits_lt b
      unfold escapeByte
      simp only [List.cons_append, List.nil_append, Url.upperEscapes]
      rw [hexPair?_digits, (upperHexDigit_spec _ hhigh).2.1, (upperHexDigit_spec _ hlow).2.1, ih]

/-- Every percent sign of a tidy text begins an escape. -/
theorem Tidy.isEscapedOf {t : Text} (h : Tidy allowed t) :
    isEscapedOf (fun _ => true) t = true := by
  induction h with
  | nil => rfl
  | @char c t _ hpercent _ ih =>
      unfold Url.isEscapedOf
      split
      · rfl
      · next heq =>
        cases heq
        exact absurd rfl hpercent
      · next heq =>
        cases heq
        rw [ih]
        simpa using hpercent
  | escape b _ _ ih =>
      unfold escapeByte
      simp only [List.cons_append, List.nil_append, Url.isEscapedOf]
      rw [hexPair?_digits, ih]
      rfl

theorem percentEncode_of_all {t : Text} (h : ∀ c ∈ t, allowed c = true) :
    percentEncode allowed t = t := by
  induction t with
  | nil => rfl
  | cons c t ih =>
      have hc := h c List.mem_cons_self
      have ht := ih fun d hd => h d (List.mem_cons_of_mem c hd)
      unfold percentEncode at ht ⊢
      rw [List.flatMap_cons, if_pos hc, ht]
      rfl

theorem percentEncode_append (t u : Text) :
    percentEncode allowed (t ++ u) = percentEncode allowed t ++ percentEncode allowed u :=
  List.flatMap_append

theorem percentEncode_joinWith (sep : Text) (pieces : List Text) :
    percentEncode allowed (Text.joinWith sep pieces) =
      Text.joinWith (percentEncode allowed sep) (pieces.map (percentEncode allowed)) := by
  induction pieces with
  | nil => rfl
  | cons piece pieces ih =>
      by_cases hempty : pieces = []
      · rw [hempty, List.map_singleton, Text.joinWith_singleton, Text.joinWith_singleton]
      · rw [List.map_cons, Text.joinWith_cons _ _ hempty,
          Text.joinWith_cons _ _ (by simpa using hempty), percentEncode_append,
          percentEncode_append, ih]

private theorem escapePoint_cons (c : CodePoint) : ∃ rest, escapePoint c = .char '%' :: rest := by
  have hbytes : Text.Utf8.encodePoint c ≠ [] := by
    unfold Text.Utf8.encodePoint
    dsimp only
    split
    · simp
    · split
      · simp
      · split <;> simp
  obtain ⟨b, bytes, hb⟩ := List.exists_cons_of_ne_nil hbytes
  unfold escapePoint
  rw [hb, List.flatMap_cons]
  exact ⟨_, rfl⟩

/-- A text without anything to escape is the encoding of itself only. -/
theorem percentEncode_eq_iff {t u : Text} (hu : ∀ c ∈ u, allowed c = true ∧ c ≠ .char '%') :
    percentEncode allowed t = u ↔ t = u := by
  constructor
  · intro h
    induction t generalizing u with
    | nil => exact h
    | cons c t ih =>
        unfold percentEncode at h
        rw [List.flatMap_cons] at h
        split at h
        · cases u with
          | nil => cases h
          | cons d u =>
              rw [List.singleton_append, List.cons.injEq] at h
              rw [h.1, ih (fun e he => hu e (List.mem_cons_of_mem d he)) h.2]
        · obtain ⟨rest, hrest⟩ := escapePoint_cons c
          rw [hrest] at h
          have hpercent := (hu (.char '%') (by rw [← h]; exact List.mem_cons_self)).2
          exact absurd rfl hpercent
  · rintro rfl
    exact percentEncode_of_all fun c hc => (hu c hc).1

/-- A tidy component is in normal form. -/
theorem Tidy.encodeComponent {t : Text} (h : Tidy allowed t)
    (hunreserved : ∀ c, isUnreserved c = true → allowed c = true) :
    encodeComponent allowed t = t := by
  unfold Url.encodeComponent
  dsimp only
  rw [h.isEscapedOf, h.upperEscapes]
  apply percentEncode_of_all
  intro c hc
  rcases h.mem hc with hc | rfl | hc
  · simp [hc]
  · simp
  · simp [hunreserved c hc]

private theorem part?_digits (b : UInt8) (rest : Text)
    (hb : isUnreserved (.ofNat b.toNat) = false) :
    undoEscapes?.part? (upperHexDigit (b.toNat / 16) :: upperHexDigit (b.toNat % 16) :: rest) =
      some (escapeByte b ++ rest) := by
  obtain ⟨hhigh, hlow, hvalue⟩ := digits_lt b
  have hfirst := upperHexDigit_spec _ hhigh
  have hsecond := upperHexDigit_spec _ hlow
  unfold undoEscapes?.part? undoEscapes?.value?
  dsimp only
  rw [hfirst.2.2.1, hsecond.2.2.1, hfirst.1, hsecond.1]
  simp only [Bool.and_self, if_true, Option.some_or, hvalue, hb, Bool.false_eq_true, if_false]
  rfl

/-- A tidy text holds no escape that is undone. -/
theorem Tidy.undoEscapes? {t : Text} (h : Tidy allowed t) : undoEscapes? t = some t := by
  have hparts : ∃ first parts kept, Text.splitOn '%' t = first :: parts ∧
      parts.mapM undoEscapes?.part? = some kept ∧ first ++ kept.flatten = t := by
    induction h with
    | nil => exact ⟨[], [], [], rfl, rfl, rfl⟩
    | @char c t _ hpercent _ ih =>
        obtain ⟨first, parts, kept, hsplit, hkept, hjoin⟩ := ih
        refine ⟨c :: first, parts, kept, ?_, hkept, by rw [List.cons_append, hjoin]⟩
        unfold Text.splitOn
        rw [if_neg hpercent, hsplit]
    | @escape b t hb _ ih =>
        obtain ⟨first, parts, kept, hsplit, hkept, hjoin⟩ := ih
        obtain ⟨hhigh, hlow, _⟩ := digits_lt b
        have hfirst := (upperHexDigit_spec _ hhigh).2.2.2.2
        have hsecond := (upperHexDigit_spec _ hlow).2.2.2.2
        refine ⟨[], (upperHexDigit (b.toNat / 16) :: upperHexDigit (b.toNat % 16) :: first) :: parts,
          (escapeByte b ++ first) :: kept, ?_, ?_, ?_⟩
        · unfold escapeByte
          simp only [List.cons_append, List.nil_append, Text.splitOn, hfirst, hsecond, if_true,
            if_false, hsplit]
        · rw [List.mapM_cons, part?_digits b first hb, hkept]
          rfl
        · rw [List.nil_append, List.flatten_cons, List.append_assoc, hjoin]
  obtain ⟨first, parts, kept, hsplit, hkept, hjoin⟩ := hparts
  unfold Url.undoEscapes?
  rw [hsplit]
  dsimp only
  rw [hkept, Option.map_some, hjoin]

/-- The bytes that an encoded text stands for are those of the text. -/
theorem percentDecode_percentEncode (hpercent : allowed (.char '%') = false) (t : Text) :
    percentDecode (percentEncode allowed t) = t.flatMap Text.Utf8.encodePoint := by
  have hchar {c : CodePoint} (hc : c ≠ .char '%') (rest : Text) :
      percentDecode (c :: rest) = Text.Utf8.encodePoint c ++ percentDecode rest := by
    rw [percentDecode.eq_def]
    split
    · next heq =>
      cases heq
      exact absurd rfl hc
    · next heq =>
      cases heq
      rfl
    · next heq => cases heq
  have hbyte (b : UInt8) (rest : Text) :
      percentDecode (escapeByte b ++ rest) = b :: percentDecode rest := by
    unfold escapeByte
    simp only [List.cons_append, List.nil_append, percentDecode]
    rw [hexPair?_digits]
    simp
  have hbytes (bytes : Bytes) (rest : Text) :
      percentDecode (bytes.flatMap escapeByte ++ rest) = bytes ++ percentDecode rest := by
    induction bytes with
    | nil => rfl
    | cons b bytes ih => rw [List.flatMap_cons, List.append_assoc, hbyte, ih, List.cons_append]
  induction t with
  | nil => rfl
  | cons c t ih =>
      unfold percentEncode at ih ⊢
      rw [List.flatMap_cons, List.flatMap_cons]
      split
      · next hc => rw [List.singleton_append, hchar (fun h => by rw [h, hpercent] at hc; cases hc), ih]
      · rw [escapePoint, hbytes, ih]

theorem unescape_of_isAscii {t : Text} (h : t.all CodePoint.isAscii = true) :
    unescape t = Text.Utf8.decodeLenient (percentDecode t) := by
  unfold unescape
  by_cases hempty : t = []
  · rw [hempty]
    rfl
  · have hchain : t.IsChain fun a b => (a.isAscii == b.isAscii) = true := by
      apply List.Pairwise.isChain
      apply List.pairwise_of_forall_mem_list
      intro a ha b hb
      rw [List.all_eq_true.mp h a ha, List.all_eq_true.mp h b hb]
      rfl
    rw [List.splitBy_of_isChain hempty hchain, List.flatMap_cons, if_pos h]
    simp

/-- An encoded text of whole characters reads back as it was. -/
theorem unescape_percentEncode (hascii : ∀ c, allowed c = true → c.toNat < 0x80)
    (hpercent : allowed (.char '%') = false) {t : Text} (h : t.any CodePoint.isHalf = false) :
    unescape (percentEncode allowed t) = t := by
  have hall : (percentEncode allowed t).all CodePoint.isAscii = true := by
    rw [List.all_eq_true]
    intro c hc
    have hlt : c.toNat < 0x80 := by
      rcases mem_percentEncode hc with ⟨_, hc⟩ | rfl | hunreserved
      · exact hascii c hc
      · decide
      · exact isUnreserved_lt hunreserved
    exact decide_eq_true hlt
  rw [unescape_of_isAscii hall, percentDecode_percentEncode hpercent,
    Text.Utf8.decodeLenient_encode h]

end DataLake.Url
