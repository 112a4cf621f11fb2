import DataLake.Text

/-!
Blank characters: the characters with the Unicode property White_Space and the
four information separators U+001C to U+001F. Stripping and splitting text of
a service answer goes by this class.
-/

namespace DataLake.Text

def blankRanges : List (Nat × Nat) :=
  [(0x9, 0xD), (0x1C, 0x20), (0x85, 0x85), (0xA0, 0xA0), (0x1680, 0x1680), (0x2000, 0x200A),
    (0x2028, 0x2029), (0x202F, 0x202F), (0x205F, 0x205F), (0x3000, 0x3000)]

def isBlank (c : CodePoint) : Bool :=
  inRanges blankRanges c

def strip (t : Text) : Text :=
  trim isBlank t

/-- The words read so far, newest first, after one more character. A word in
progress is at the head; an empty head stands between words. -/
private def addToWords (words : List Text) (c : CodePoint) : List Text :=
  match words with
  | [] => if isBlank c then [] else [[c]]
  | word :: done =>
      if isBlank c then
        if word.isEmpty then words else [] :: words
      else (c :: word) :: done

/-- The maximal runs of characters that are not blank. -/
def words (t : Text) : List Text :=
  ((t.foldl addToWords []).filter (!·.isEmpty)).reverse.map List.reverse

/-- A word holds no blank. -/
theorem isBlank_of_mem_words {t word : Text} (hword : word ∈ words t) {c : CodePoint}
    (hc : c ∈ word) : isBlank c = false := by
  have hread : ∀ word ∈ t.foldl addToWords [], ∀ c ∈ word, isBlank c = false := by
    refine List.foldlRecOn (motive := fun done => ∀ word ∈ done, ∀ c ∈ word, isBlank c = false)
      t addToWords (by simp) fun done hdone d _ => ?_
    -- A blank adds no character to a word; another character is added to the word at the head.
    unfold addToWords
    split
    · split
      · simp
      · next hd => simpa using hd
    · next first done =>
      simp only [List.mem_cons, forall_eq_or_imp] at hdone
      split
      · split
        · simpa using hdone
        · simpa using hdone
      · next hd => simpa using ⟨⟨Bool.eq_false_iff.mpr hd, hdone.1⟩, hdone.2⟩
  unfold words at hword
  simp only [List.map_reverse, List.mem_reverse, List.mem_map, List.mem_filter] at hword
  obtain ⟨reversed, ⟨hmem, _⟩, rfl⟩ := hword
  exact hread reversed hmem c (List.mem_reverse.mp hc)

/-- Characters that are not blank all go into the word in progress. -/
private theorem foldl_not_blank (word : Text) {rest : Text}
    (hrest : ∀ c ∈ rest, isBlank c = false) :
    rest.foldl addToWords [word] = [rest.reverse ++ word] := by
  induction rest generalizing word with
  | nil => rfl
  | cons c rest ih =>
      have hstep : addToWords [word] c = [c :: word] := by
        simp [addToWords, hrest c List.mem_cons_self]
      rw [List.foldl_cons, hstep, ih _ fun d hd => hrest d (List.mem_cons_of_mem c hd)]
      simp

private theorem foldl_word {word : Text} (hne : word ≠ []) (hword : ∀ c ∈ word, isBlank c = false) :
    word.foldl addToWords [] = [word.reverse] := by
  cases word with
  | nil => exact absurd rfl hne
  | cons c rest =>
      obtain ⟨hc, hrest⟩ := List.forall_mem_cons.mp hword
      have hstep : addToWords [] c = [[c]] := by simp [addToWords, hc]
      rw [List.foldl_cons, hstep, foldl_not_blank _ hrest, List.reverse_cons]

/-- A text without blanks is a single word, unless it is empty. -/
theorem words_of_not_blank {t : Text} (h : ∀ c ∈ t, isBlank c = false) :
    words t = if t.isEmpty then [] else [t] := by
  unfold words
  by_cases hnone : t = []
  · rw [hnone]
    rfl
  · rw [foldl_word hnone h]
    simp [hnone]

/-- Only the word in progress is touched, so words that are done stay behind it. -/
private theorem foldl_addToWords_append {started : List Text} (hstarted : started ≠ [])
    (done : List Text) (t : Text) :
    t.foldl addToWords (started ++ done) = t.foldl addToWords started ++ done := by
  induction t generalizing started with
  | nil => rfl
  | cons c t ih =>
      cases started with
      | nil => exact absurd rfl hstarted
      | cons word more =>
          have hstep (done : List Text) : addToWords (word :: done) c =
              if isBlank c then if word.isEmpty then word :: done else [] :: word :: done
              else (c :: word) :: done := rfl
          have hfirst : addToWords ((word :: more) ++ done) c = addToWords (word :: more) c ++ done := by
            rw [List.cons_append, hstep, hstep]
            split
            · split <;> rfl
            · rfl
          have hnext : addToWords (word :: more) c ≠ [] := by
            rw [hstep]
            split
            · split <;> simp
            · simp
          rw [List.foldl_cons, List.foldl_cons, hfirst, ih hnext]

/-- Between words it makes no difference whether a word was read before. -/
private theorem filter_foldl_addToWords (t : Text) :
    (t.foldl addToWords [[]]).filter (!·.isEmpty) = (t.foldl addToWords []).filter (!·.isEmpty) := by
  induction t with
  | nil => rfl
  | cons c t ih =>
      by_cases hc : isBlank c = true
      · have hbegun : addToWords [[]] c = [[]] := by simp [addToWords, hc]
        have hnone : addToWords [] c = [] := by simp [addToWords, hc]
        rw [List.foldl_cons, List.foldl_cons, hbegun, hnone, ih]
      · have hsame : addToWords [[]] c = addToWords [] c := by simp [addToWords, hc]
        rw [List.foldl_cons, List.foldl_cons, hsame]

/-- A blank ends the word before it, and the words after it are read on their own. -/
theorem words_append_cons {word : Text} (hne : word ≠ []) (hword : ∀ c ∈ word, isBlank c = false)
    {blank : CodePoint} (hblank : isBlank blank = true) (rest : Text) :
    words (word ++ blank :: rest) = word :: words rest := by
  have hended : addToWords [word.reverse] blank = [[]] ++ [word.reverse] := by
    simp [addToWords, hblank, hne]
  unfold words
  rw [List.foldl_append, foldl_word hne hword, List.foldl_cons, hended, foldl_addToWords_append (by simp),
    List.filter_append, filter_foldl_addToWords]
  simp [hne]

/-- One blank ends a word as well as any other. -/
private theorem addToWords_of_isBlank {c : CodePoint} (hc : isBlank c = true) (done : List Text) :
    addToWords done c = addToWords done ' ' := by
  have hspace : isBlank (.char ' ') = true := by decide
  unfold addToWords
  cases done with
  | nil => rw [if_pos hc, if_pos hspace]
  | cons word done =>
      dsimp only
      rw [if_pos hc, if_pos hspace]

private theorem foldl_blanks {run : Text} (hne : run ≠ []) (hrun : ∀ c ∈ run, isBlank c = true)
    (done : List Text) : run.foldl addToWords done = addToWords done ' ' := by
  have hspace : isBlank (.char ' ') = true := by decide
  have htwice (done : List Text) : addToWords (addToWords done ' ') ' ' = addToWords done ' ' := by
    cases done with
    | nil => rfl
    | cons word done => cases word <;> simp [addToWords, hspace]
  induction run generalizing done with
  | nil => exact absurd rfl hne
  | cons c run ih =>
      obtain ⟨hc, hrest⟩ := List.forall_mem_cons.mp hrun
      rw [List.foldl_cons, addToWords_of_isBlank hc]
      by_cases hlast : run = []
      · rw [hlast, List.foldl_nil]
      · rw [ih hlast hrest, htwice]

/-- It does not matter which blanks stand between two words, nor how many. -/
theorem words_of_blanks {run run' : Text} (hne : run ≠ []) (hne' : run' ≠ [])
    (hrun : ∀ c ∈ run, isBlank c = true) (hrun' : ∀ c ∈ run', isBlank c = true)
    (before after : Text) : words (before ++ run ++ after) = words (before ++ run' ++ after) := by
  unfold words
  simp only [List.foldl_append, foldl_blanks hne hrun, foldl_blanks hne' hrun']

end DataLake.Text
