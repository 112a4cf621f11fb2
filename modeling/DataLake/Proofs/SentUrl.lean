import DataLake.Proofs.Escaping

/-!
URLs on a web endpoint, as they are sent. Preparing such a URL keeps the host,
carries out the dot segments of the path and adds the query; what is sent comes
apart again into these parts. The path must be tidy, so that no normal form
changes it further.
-/

namespace DataLake

namespace Text

variable {sep : CodePoint}

private theorem bne_of_not_mem {t : Text} (h : sep ∉ t) : ∀ c ∈ t, (c != sep) = true := by
  intro c hc
  rw [bne_iff_ne]
  rintro rfl
  exact h hc

theorem cutFirst_of_not_mem {t : Text} (h : sep ∉ t) : cutFirst sep t = (t, none) := by
  have hdrop : t.dropWhile (· != sep) = [] := List.dropWhile_eq_nil_iff.mpr (bne_of_not_mem h)
  unfold cutFirst
  rw [hdrop]

theorem cutFirst_append_cons {t : Text} (h : sep ∉ t) (u : Text) :
    cutFirst sep (t ++ sep :: u) = (t, some u) := by
  have hkeep := bne_of_not_mem h
  have hdrop : (t ++ sep :: u).dropWhile (· != sep) = sep :: u := by
    rw [List.dropWhile_append_of_pos hkeep]
    exact List.dropWhile_cons_of_neg (by simp)
  have htake : (t ++ sep :: u).takeWhile (· != sep) = t := by
    rw [List.takeWhile_append_of_pos hkeep, List.takeWhile_cons_of_neg (by simp),
      List.append_nil]
  unfold cutFirst
  rw [hdrop, htake]

theorem cutLast_of_not_mem {t : Text} (h : sep ∉ t) : cutLast sep t = (none, t) := by
  unfold cutLast
  rw [cutFirst_of_not_mem (by simpa using h)]
  dsimp only
  rw [List.reverse_reverse]

theorem ofNat_ne_nil (n : Nat) : ofNat n ≠ [] := fun hnone =>
  Nat.toDigits_ne_nil (List.map_eq_nil_iff.mp hnone)

end Text

namespace Url

/-- Characters of a host and a port: visible ASCII without the delimiters of a URL. -/
def isAuthorityChar (c : CodePoint) : Bool :=
  0x20 < c.toNat && c.toNat < 0x7F && !("[]%/?#@\\" : Text).contains c

/-- An endpoint of the web: a scheme and a host in ASCII, with a port or without. -/
def IsWebEndpoint (endpoint : Text) : Prop :=
  ∃ authority : Text, (∀ c ∈ authority, isAuthorityChar c = true) ∧
    (endpoint = "http://" ++ authority ∨ endpoint = "https://" ++ authority)

/-- What holds of all ASCII characters holds of a code point of ASCII. -/
theorem of_ascii {p : CodePoint → Bool} (h : ∀ n : Fin 128, p (.ofNat n) = true)
    {c : CodePoint} (hc : c.toNat < 128) : p c = true := by
  have hn := h ⟨c.toNat, hc⟩
  rwa [CodePoint.ofNat_toNat] at hn

theorem isAuthorityChar_spec {c : CodePoint} (h : isAuthorityChar c = true) :
    0x20 < c.toNat ∧ c.toNat < 0x7F ∧ c ≠ .char '[' ∧ c ≠ .char ']' ∧ c ≠ .char '%' ∧
      c ≠ .char '/' ∧ c ≠ .char '?' ∧ c ≠ .char '#' ∧ c ≠ .char '@' ∧ c ≠ .char '\\' := by
  simp only [isAuthorityChar, Bool.and_eq_true, decide_eq_true_eq, Bool.not_eq_true'] at h
  obtain ⟨⟨hlow, hhigh⟩, hother⟩ := h
  refine ⟨hlow, hhigh, ?_, ?_, ?_, ?_, ?_, ?_, ?_, ?_⟩ <;> rintro rfl <;> revert hother <;> decide

theorem isAuthorityChar_asciiLower {c : CodePoint} (h : isAuthorityChar c = true) :
    isAuthorityChar c.asciiLower = true := by
  have hall : ∀ n : Fin 128, (!isAuthorityChar (.ofNat n) ||
      isAuthorityChar (CodePoint.ofNat n).asciiLower) = true := by decide
  have hlt := (isAuthorityChar_spec h).2.1
  have hc := of_ascii (p := fun c => !isAuthorityChar c || isAuthorityChar c.asciiLower)
    hall (Nat.lt_trans hlt (by decide))
  simpa [h] using hc

private theorem tidyName_of_not_mem {name : Text} (h : .char '%' ∉ name) :
    tidyName name = name.map CodePoint.asciiLower := by
  induction name with
  | nil => rfl
  | cons c name ih =>
      rw [List.mem_cons, not_or] at h
      rw [tidyName.eq_def]
      split
      · next heq =>
        cases heq
        exact absurd rfl h.1
      · next heq =>
        cases heq
        rw [ih h.2, List.map_cons]
      · next heq => cases heq

theorem readHostPort?_host {authority : Text} (h : ∀ c ∈ authority, isAuthorityChar c = true)
    {hp : HostPort} (hread : readHostPort? true authority = some hp) :
    ∀ c ∈ hp.host, isAuthorityChar c = true := by
  have hname : ∀ c ∈ (Text.cutFirst (.char ':') authority).1, isAuthorityChar c = true := by
    intro c hc
    apply h
    unfold Text.cutFirst at hc
    split at hc
    · exact hc
    · exact (List.takeWhile_sublist _).subset hc
  have hpercent : .char '%' ∉ (Text.cutFirst (.char ':') authority).1 := fun hmem =>
    (isAuthorityChar_spec (hname _ hmem)).2.2.2.2.1 rfl
  unfold readHostPort? at hread
  split at hread
  · next rest =>
    have hbracket := h (.char '[') List.mem_cons_self
    exact absurd hbracket (by decide)
  · dsimp only at hread
    split at hread
    · obtain ⟨port, _, hrest⟩ := Option.bind_eq_some_iff.mp hread
      obtain ⟨host, hhost, hpure⟩ := Option.bind_eq_some_iff.mp hrest
      cases hpure
      unfold normalizeName? at hhost
      split at hhost
      · cases hhost
        exact hname
      · split at hhost
        · cases hhost
        · cases hhost
          rw [tidyName_of_not_mem hpercent]
          intro c hc
          obtain ⟨d, hd, rfl⟩ := List.mem_map.mp hc
          exact isAuthorityChar_asciiLower (hname d hd)
    · cases hread

/-- The path that is sent for a path. -/
def sentPath (path : Text) : Text :=
  let path := removeDots path
  if path.head? = some (.char '/') then path else .char '/' :: path

private theorem cutWebScheme_web {scheme : Text} (hscheme : scheme = "http" ∨ scheme = "https")
    (rest : Text) : cutWebScheme (scheme ++ .char ':' :: rest) = (some scheme, rest) := by
  have hcolon : .char ':' ∉ scheme := by
    rcases hscheme with rfl | rfl <;> decide
  unfold cutWebScheme
  rw [Text.cutFirst_append_cons hcolon]
  rcases hscheme with rfl | rfl <;> rfl

private theorem cutWebAuthority_web {authority : Text}
    (h : ∀ c ∈ authority, isAuthorityChar c = true) (rest : Text) :
    cutWebAuthority (.char '/' :: .char '/' :: (authority ++ .char '/' :: rest)) =
      (authority, .char '/' :: rest) := by
  have hinside : ∀ c ∈ authority,
      (c != .char '/' && c != .char '?' && c != .char '#' && c != .char '\\') = true := by
    intro c hc
    have hspec := isAuthorityChar_spec (h c hc)
    simp [hspec]
  unfold cutWebAuthority
  simp only
  rw [List.takeWhile_append_of_pos hinside, List.dropWhile_append_of_pos hinside,
    List.takeWhile_cons_of_neg (by decide), List.dropWhile_cons_of_neg (by decide),
    List.append_nil]

private theorem readAuthority?_web {authority : Text}
    (h : ∀ c ∈ authority, isAuthorityChar c = true) :
    readAuthority? true authority = (readHostPort? true authority).map fun hp => ([], hp) := by
  have hat : .char '@' ∉ authority := fun hmem =>
    (isAuthorityChar_spec (h _ hmem)).2.2.2.2.2.2.2.2.1 rfl
  unfold readAuthority?
  rw [Text.cutLast_of_not_mem hat]
  rfl

private theorem not_mem_of_tidy_path {path : Text} (h : Tidy isPathChar path) :
    .char '#' ∉ path ∧ .char '?' ∉ path := by
  constructor
  · intro hmem
    rcases h.mem hmem with hc | hc | hc <;> revert hc <;> decide
  · intro hmem
    rcases h.mem hmem with hc | hc | hc <;> revert hc <;> decide

private theorem isForeign_web {scheme : Text} (hscheme : scheme = "http" ∨ scheme = "https")
    (after : Text) : isForeign (scheme ++ after) = false := by
  have hbegin : (Text.ofString "http").isPrefixOf ((scheme ++ after).map CodePoint.asciiLower) =
      true := by
    rcases hscheme with rfl | rfl <;> rfl
  unfold isForeign
  rw [hbegin, Bool.not_true, Bool.and_false]

private theorem joinQueries_nil (added : Text) : joinQueries [] added = added := by
  unfold joinQueries
  split
  · next hempty => rw [List.isEmpty_iff.mp hempty]
  · rfl

/-- Whether no request can be sent to a host of this name. -/
def isUnusable (host : Text) : Bool :=
  host.isEmpty || host.head? = some (.char '*') || host.head? = some (.char '.')

/-- Preparing a URL on a web endpoint depends on its host and on the query only. -/
theorem prepare_web {scheme authority path : Text} (hscheme : scheme = "http" ∨ scheme = "https")
    (hauthority : ∀ c ∈ authority, isAuthorityChar c = true) (hpath : Tidy isPathChar path)
    (hslash : ∃ rest, path = .char '/' :: rest) (hdots : Tidy isPathChar (removeDots path))
    (fields : List (Text × Text)) :
    prepare (scheme ++ .char ':' :: .char '/' :: .char '/' :: (authority ++ path)) fields =
      match readHostPort? true authority with
      | none => .error .malformed
      | some hp =>
          if isUnusable hp.host then .error .malformed
          else
            match encodeQuery? fields with
            | none => .error .unencodable
            | some query =>
                match requote? (assemble scheme [] hp.host hp.port (sentPath path) query []) with
                | some url => .ok url
                | none => .error .unencodable := by
  obtain ⟨rest, hrest⟩ := hslash
  have hblank (after : Text) : (scheme ++ after).dropWhile Text.isBlank = scheme ++ after := by
    rcases hscheme with rfl | rfl <;> rfl
  have hweb : isWebScheme scheme = true := by
    rcases hscheme with rfl | rfl <;> decide
  have hpathChar (c : CodePoint) (hc : isUnreserved c = true) : isPathChar c = true := by
    simp [isPathChar, isUserChar, hc]
  have hempty : encodeComponent isQueryChar [] = [] := rfl
  obtain ⟨hfragment, hquery⟩ := not_mem_of_tidy_path hpath
  unfold prepare
  dsimp only
  rw [hblank, isForeign_web hscheme, cutWebScheme_web hscheme, hrest,
    cutWebAuthority_web hauthority, ← hrest]
  dsimp only
  rw [Text.cutFirst_of_not_mem hfragment]
  dsimp only
  rw [Text.cutFirst_of_not_mem hquery]
  simp only [Option.all_some, hweb]
  rw [readAuthority?_web hauthority]
  cases readHostPort? true authority with
  | none => rfl
  | some hp =>
      dsimp only [Option.map_some]
      simp only [Bool.false_eq_true, if_false, if_true, hdots.encodeComponent hpathChar,
        Option.getD_none, hempty, joinQueries_nil]
      rfl

/-- Characters of one side of a query field. -/
def isSideChar (c : CodePoint) : Bool :=
  isUnreserved c || c == '+'

/-- Characters of the query text that is made of fields. -/
def isFieldChar (c : CodePoint) : Bool :=
  isUnreserved c || c == '+' || c == '=' || c == '&'

theorem Tidy.joinWith {allowed : CodePoint → Bool} {sep : Text} {pieces : List Text}
    (hsep : Tidy allowed sep) (h : ∀ piece ∈ pieces, Tidy allowed piece) :
    Tidy allowed (Text.joinWith sep pieces) := by
  induction pieces with
  | nil => exact .nil
  | cons piece pieces ih =>
      have hpiece := h piece List.mem_cons_self
      have hrest := ih fun next hnext => h next (List.mem_cons_of_mem piece hnext)
      by_cases hempty : pieces = []
      · rw [hempty, Text.joinWith_singleton]
        exact hpiece
      · rw [Text.joinWith_cons _ _ hempty]
        exact hpiece.append (hsep.append hrest)

theorem encodeField_tidy (t : Text) : Tidy isSideChar (encodeField t) := by
  induction t with
  | nil => exact .nil
  | cons c t ih =>
      unfold encodeField
      rw [List.flatMap_cons]
      refine Tidy.append ?_ ih
      split
      · exact .char _ (by decide) (by decide) .nil
      · split
        · next hc =>
          refine .char c (by simp [isSideChar, hc]) ?_ .nil
          rintro rfl
          revert hc
          decide
        · next hc =>
          rw [Bool.not_eq_true] at hc
          exact escapePoint_tidy hc

theorem encodeQuery_tidy (fields : List (Text × Text)) : Tidy isFieldChar (encodeQuery fields) := by
  have hside (c : CodePoint) (hc : isSideChar c = true) : isFieldChar c = true := by
    unfold isSideChar at hc
    simp [isFieldChar, hc]
  have hsep : Tidy isFieldChar "&" := .char _ (by decide) (by decide) .nil
  apply hsep.joinWith
  intro piece hpiece
  obtain ⟨⟨key, value⟩, _, rfl⟩ := List.mem_map.mp hpiece
  have hkey := (encodeField_tidy key).mono hside
  have hvalue := (encodeField_tidy value).mono hside
  exact hkey.append (.char _ (by decide) (by decide) hvalue)

def isVisible (c : CodePoint) : Bool :=
  0x20 < c.toNat && c.toNat < 0x7F

theorem isHalf_of_isVisible {c : CodePoint} (h : isVisible c = true) :
    c.isHalf = false := by
  cases c with
  | char c => rfl
  | half n =>
      have hlt : 0xD800 + n.val < 0x7F := by
        simp only [isVisible, CodePoint.toNat, Bool.and_eq_true] at h
        exact of_decide_eq_true h.2
      omega

private theorem isVisible_of_isAuthorityChar {c : CodePoint} (h : isAuthorityChar c = true) :
    isVisible c = true := by
  obtain ⟨hlow, hhigh, _⟩ := isAuthorityChar_spec h
  simp [isVisible, hlow, hhigh]

private theorem isAuthorityChar_of_isUnreserved {c : CodePoint} (h : isUnreserved c = true) :
    isAuthorityChar c = true := by
  have hall : ∀ n : Fin 128, (!isUnreserved (.ofNat n) || isAuthorityChar (.ofNat n)) = true := by
    decide
  have hc := of_ascii (p := fun c => !isUnreserved c || isAuthorityChar c) hall
    (isUnreserved_lt h)
  simpa [h] using hc

theorem isVisible_of_isUnreserved {c : CodePoint} (h : isUnreserved c = true) :
    isVisible c = true :=
  isVisible_of_isAuthorityChar (isAuthorityChar_of_isUnreserved h)

private theorem isUrlChar_of_isPathChar {c : CodePoint} (h : isPathChar c = true) :
    isVisible c = true ∧ isUrlChar c = true := by
  simp only [isPathChar, isUserChar, Bool.or_eq_true, beq_iff_eq] at h
  rcases h with (((h | h) | rfl) | rfl) | rfl
  · refine ⟨isVisible_of_isUnreserved h, ?_⟩
    simp [isUrlChar, h]
  · have hall : ∀ d ∈ ("!$&'()*+,;=" : Text), isVisible d = true ∧ isUrlChar d = true := by
      decide
    exact hall c (List.contains_iff_mem.mp h)
  all_goals decide

private theorem isUrlChar_of_isFieldChar {c : CodePoint} (h : isFieldChar c = true) :
    isVisible c = true ∧ isUrlChar c = true := by
  simp only [isFieldChar, Bool.or_eq_true, beq_iff_eq] at h
  rcases h with ((h | rfl) | rfl) | rfl
  · refine ⟨isVisible_of_isUnreserved h, ?_⟩
    simp [isUrlChar, h]
  all_goals decide

def portText (port : Option Nat) : Text :=
  port.elim [] fun n => .char ':' :: Text.ofNat n

theorem isUnreserved_of_mem_ofNat {n : Nat} {c : CodePoint} (h : c ∈ Text.ofNat n) :
    isUnreserved c = true := by
  obtain ⟨d, hd, rfl⟩ := List.mem_map.mp h
  have hdigit : d.isDigit = true := Nat.isDigit_of_mem_toDigits (by decide) (by decide) hd
  simp [isUnreserved, CodePoint.isAsciiAlphanum, CodePoint.isAsciiDigit, hdigit]

private theorem portText_chars {port : Option Nat} {c : CodePoint} (h : c ∈ portText port) :
    isAuthorityChar c = true ∧ isUrlChar c = true := by
  cases port with
  | none => cases h
  | some n =>
      rcases List.mem_cons.mp h with rfl | h
      · decide
      · have hunreserved := isUnreserved_of_mem_ofNat h
        exact ⟨isAuthorityChar_of_isUnreserved hunreserved, by simp [isUrlChar, hunreserved]⟩

def queryText (query : Text) : Text :=
  if query.isEmpty then [] else .char '?' :: query

private theorem mem_path {path : Text} (hpath : Tidy isPathChar path) {c : CodePoint}
    (hc : c ∈ path) : c = .char '%' ∨ isPathChar c = true := by
  rcases hpath.mem hc with hc | hc | hc
  · exact .inr hc
  · exact .inl hc
  · exact .inr (by simp [isPathChar, isUserChar, hc])

private theorem mem_queryText {query : Text} (hquery : Tidy isFieldChar query) {c : CodePoint}
    (hc : c ∈ queryText query) : c = .char '?' ∨ c = .char '%' ∨ isFieldChar c = true := by
  unfold queryText at hc
  split at hc
  · cases hc
  · rcases List.mem_cons.mp hc with hc | hc
    · exact .inl hc
    · rcases hquery.mem hc with hc | hc | hc
      · exact .inr (.inr hc)
      · exact .inr (.inl hc)
      · exact .inr (.inr (by simp [isFieldChar, hc]))

private theorem isVisible_web {scheme authority path query : Text}
    (hscheme : scheme = "http" ∨ scheme = "https")
    (hauthority : ∀ c ∈ authority, isAuthorityChar c = true ∨ c = .char '%')
    (hpath : Tidy isPathChar path) (hquery : Tidy isFieldChar query) :
    ∀ c ∈ scheme ++ .char ':' :: .char '/' :: .char '/' ::
      (authority ++ (path ++ queryText query)), isVisible c = true := by
  have hname : ∀ c ∈ scheme, isVisible c = true := by
    rcases hscheme with rfl | rfl <;> decide
  intro c hc
  simp only [List.mem_append, List.mem_cons] at hc
  rcases hc with hc | rfl | rfl | rfl | hc | hc | hc
  · exact hname c hc
  · decide
  · decide
  · decide
  · rcases hauthority c hc with hc | rfl
    · exact isVisible_of_isAuthorityChar hc
    · decide
  · rcases mem_path hpath hc with rfl | hc
    · decide
    · exact (isUrlChar_of_isPathChar hc).1
  · rcases mem_queryText hquery hc with rfl | rfl | hc
    · decide
    · decide
    · exact (isUrlChar_of_isFieldChar hc).1

private theorem cutAuthority_web {authority : Text}
    (h : ∀ c ∈ authority, isAuthorityChar c = true ∨ c = .char '%') (rest : Text) :
    cutAuthority (.char '/' :: .char '/' :: (authority ++ .char '/' :: rest)) =
      (authority, .char '/' :: rest) := by
  have hinside : ∀ c ∈ authority,
      (c != .char '/' && c != .char '?' && c != .char '#') = true := by
    intro c hc
    rcases h c hc with hc | rfl
    · have hspec := isAuthorityChar_spec hc
      simp [hspec]
    · decide
  unfold cutAuthority
  simp only
  rw [List.takeWhile_append_of_pos hinside, List.dropWhile_append_of_pos hinside,
    List.takeWhile_cons_of_neg (by decide), List.dropWhile_cons_of_neg (by decide),
    List.append_nil]

private theorem isAuthority_web {authority : Text}
    (h : ∀ c ∈ authority, isAuthorityChar c = true ∨ c = .char '%') :
    isAuthority authority = true := by
  have hopen : .char '[' ∉ authority := by
    intro hmem
    rcases h _ hmem with hc | hc <;> revert hc <;> decide
  have hclose : .char ']' ∉ authority := by
    intro hmem
    rcases h _ hmem with hc | hc <;> revert hc <;> decide
  have hlookalike : ∀ c ∈ authority, decide (c.toNat ∈ lookalikes) = false := by
    intro c hc
    have hlt : c.toNat < 0x7F := by
      rcases h c hc with hc | rfl
      · exact (isAuthorityChar_spec hc).2.1
      · decide
    have hhigh : ∀ n ∈ lookalikes, 0x7F ≤ n := by decide
    apply decide_eq_false
    intro hmem
    have hle := hhigh _ hmem
    omega
  unfold isAuthority
  rw [if_neg (by simp [hopen])]
  simp only [List.contains_eq_mem, hopen, hclose, decide_false, Bool.not_false, Bool.true_and,
    Bool.not_eq_true', List.any_eq_false, Bool.not_eq_true]
  exact hlookalike

private theorem cutScheme_web {scheme : Text} (hscheme : scheme = "http" ∨ scheme = "https")
    (rest : Text) : cutScheme (scheme ++ .char ':' :: rest) = (scheme, rest) := by
  have hcolon : .char ':' ∉ scheme := by
    rcases hscheme with rfl | rfl <;> decide
  unfold cutScheme
  rw [Text.cutFirst_append_cons hcolon]
  rcases hscheme with rfl | rfl <;> rfl

/-- Visible characters stay when a URL is read: it drops only a few controls. -/
private theorem filter_visible {t : Text} (h : ∀ c ∈ t, isVisible c = true) :
    t.filter (fun c => c != .char '\t' && c != .char '\r' && c != .char '\n') = t := by
  apply List.filter_eq_self.mpr
  intro c hc
  have hc := h c hc
  simp only [Bool.and_eq_true, bne_iff_ne]
  refine ⟨⟨?_, ?_⟩, ?_⟩ <;> rintro rfl <;> revert hc <;> decide

private theorem cutQuery_web {path : Text} (query : Text) (hpath : .char '?' ∉ path) :
    ∃ cut, Text.cutFirst (.char '?') (path ++ queryText query) = (path, cut) ∧
      cut.getD [] = query := by
  unfold queryText
  split
  · next hempty =>
    rw [List.append_nil, Text.cutFirst_of_not_mem hpath]
    exact ⟨none, rfl, (List.isEmpty_iff.mp hempty).symm⟩
  · exact ⟨some query, Text.cutFirst_append_cons hpath query, rfl⟩

/-- A web URL without anything unusual in its authority comes apart where it was put
together. -/
theorem ofUrl?_web {scheme authority path query : Text}
    (hscheme : scheme = "http" ∨ scheme = "https")
    (hauthority : ∀ c ∈ authority, isAuthorityChar c = true ∨ c = .char '%')
    (hpath : Tidy isPathChar path) (hslash : ∃ rest, path = .char '/' :: rest)
    (hquery : Tidy isFieldChar query) :
    Parts.ofUrl? (scheme ++ .char ':' :: .char '/' :: .char '/' ::
      (authority ++ (path ++ queryText query))) = some ⟨scheme, authority, path, query, []⟩ := by
  obtain ⟨hpathHash, hpathMark⟩ := not_mem_of_tidy_path hpath
  have hblank (after : Text) :
      (scheme ++ after).dropWhile (fun c => decide (c.toNat ≤ 0x20)) = scheme ++ after := by
    rcases hscheme with rfl | rfl <;> rfl
  have hcutAuthority : cutAuthority (.char '/' :: .char '/' ::
      (authority ++ (path ++ queryText query))) = (authority, path ++ queryText query) := by
    obtain ⟨rest, rfl⟩ := hslash
    exact cutAuthority_web hauthority _
  have hfragment : .char '#' ∉ path ++ queryText query := by
    rw [List.mem_append, not_or]
    refine ⟨hpathHash, fun hmem => ?_⟩
    rcases mem_queryText hquery hmem with hc | hc | hc <;> revert hc <;> decide
  obtain ⟨cut, hcut, hget⟩ := cutQuery_web query hpathMark
  unfold Parts.ofUrl?
  dsimp only
  rw [hblank, filter_visible (isVisible_web hscheme hauthority hpath hquery),
    cutScheme_web hscheme]
  dsimp only
  rw [hcutAuthority]
  dsimp only
  rw [Text.cutFirst_of_not_mem hfragment]
  dsimp only
  rw [hcut]
  dsimp only
  rw [if_pos (isAuthority_web hauthority), hget]
  rfl

/-- A web URL holds no escape that requoting undoes. -/
private theorem tidy_web {scheme host path query : Text} (port : Option Nat)
    (hscheme : scheme = "http" ∨ scheme = "https")
    (hhost : ∀ c ∈ host, isAuthorityChar c = true) (hpath : Tidy isPathChar path)
    (hquery : Tidy isFieldChar query) :
    Tidy isVisible (scheme ++ (.char ':' :: .char '/' :: .char '/' ::
      (host ++ (portText port ++ (path ++ queryText query))))) := by
  have hplain {c : CodePoint} (hc : isAuthorityChar c = true) :
      isVisible c = true ∧ c ≠ .char '%' :=
    ⟨isVisible_of_isAuthorityChar hc, (isAuthorityChar_spec hc).2.2.2.2.1⟩
  refine Tidy.append ?_ (.char _ (by decide) (by decide) (.char _ (by decide) (by decide)
    (.char _ (by decide) (by decide) (Tidy.append ?_ (Tidy.append ?_ (Tidy.append ?_ ?_))))))
  · apply tidy_of_all
    rcases hscheme with rfl | rfl <;> decide
  · apply tidy_of_all
    intro c hc
    exact hplain (hhost c hc)
  · apply tidy_of_all
    intro c hc
    exact hplain (portText_chars hc).1
  · exact hpath.mono fun c hc => (isUrlChar_of_isPathChar hc).1
  · unfold queryText
    split
    · exact .nil
    · exact .char _ (by decide) (by decide) (hquery.mono fun c hc => (isUrlChar_of_isFieldChar hc).1)

private theorem Tidy.any_isHalf {t : Text} (h : Tidy isVisible t) :
    t.any CodePoint.isHalf = false := by
  rw [List.any_eq_false]
  intro c hc
  rw [Bool.not_eq_true]
  rcases h.mem hc with hvisible | rfl | hunreserved
  · exact isHalf_of_isVisible hvisible
  · rfl
  · exact isHalf_of_isVisible (isVisible_of_isUnreserved hunreserved)

private theorem isUrlChar_after_host {path query : Text} (port : Option Nat)
    (hpath : Tidy isPathChar path) (hquery : Tidy isFieldChar query) :
    ∀ c ∈ portText port ++ (path ++ queryText query), (isUrlChar c || c == .char '%') = true := by
  intro c hc
  simp only [List.mem_append] at hc
  rcases hc with hc | hc | hc
  · simp [(portText_chars hc).2]
  · rcases mem_path hpath hc with rfl | hc
    · rfl
    · simp [(isUrlChar_of_isPathChar hc).2]
  · rcases mem_queryText hquery hc with rfl | rfl | hc
    · rfl
    · rfl
    · simp [(isUrlChar_of_isFieldChar hc).2]

/-- Requoting a web URL touches its host only. -/
theorem requote?_web {scheme host path query : Text} {port : Option Nat}
    (hscheme : scheme = "http" ∨ scheme = "https")
    (hhost : ∀ c ∈ host, isAuthorityChar c = true) (hpath : Tidy isPathChar path)
    (hquery : Tidy isFieldChar query) :
    requote? (assemble scheme [] host port path query []) =
      some (scheme ++ .char ':' :: .char '/' :: .char '/' ::
        ((percentEncode (fun c => isUrlChar c || c == .char '%') host ++ portText port) ++
          (path ++ queryText query))) := by
  have hassembled : assemble scheme [] host port path query [] =
      scheme ++ (.char ':' :: .char '/' :: .char '/' :: (host ++ (portText port ++
        (path ++ queryText query)))) := by
    unfold assemble portText queryText
    simp [List.append_assoc]
    rfl
  have htidy := tidy_web port hscheme hhost hpath hquery
  have hscheme' : percentEncode (fun c => isUrlChar c || c == .char '%') scheme = scheme := by
    apply percentEncode_of_all
    rcases hscheme with rfl | rfl <;> decide
  have hslashes (rest : Text) : percentEncode (fun c => isUrlChar c || c == .char '%')
      (.char ':' :: .char '/' :: .char '/' :: rest) = .char ':' :: .char '/' :: .char '/' ::
        percentEncode (fun c => isUrlChar c || c == .char '%') rest := rfl
  have hafter := percentEncode_of_all (isUrlChar_after_host port hpath hquery)
  rw [hassembled]
  unfold requote? percentEncode?
  rw [htidy.undoEscapes?]
  dsimp only
  rw [htidy.any_isHalf, if_neg Bool.false_ne_true, percentEncode_append, hscheme', hslashes,
    percentEncode_append, hafter, List.append_assoc]

/-- What is sent for a URL on a web endpoint comes apart into its scheme, its host,
its path and its query, without a user name. -/
private theorem sent_parts {scheme host path query url : Text} {port : Option Nat}
    (hscheme : scheme = "http" ∨ scheme = "https")
    (hhost : ∀ c ∈ host, isAuthorityChar c = true) (hpath : Tidy isPathChar path)
    (hslash : ∃ rest, path = .char '/' :: rest) (hquery : Tidy isFieldChar query)
    (h : requote? (assemble scheme [] host port path query []) = some url) :
    ∃ parts, Parts.ofUrl? url = some parts ∧ parts.path = path ∧ parts.query = query ∧
      .char '@' ∉ parts.authority := by
  rw [requote?_web hscheme hhost hpath hquery] at h
  obtain rfl := Option.some.inj h
  have hauthority : ∀ c ∈ percentEncode (fun c => isUrlChar c || c == .char '%') host ++
      portText port, isAuthorityChar c = true ∨ c = .char '%' := by
    intro c hc
    rcases List.mem_append.mp hc with hc | hc
    · rcases mem_percentEncode hc with ⟨hmem, _⟩ | hpercent | hunreserved
      · exact .inl (hhost c hmem)
      · exact .inr hpercent
      · exact .inl (isAuthorityChar_of_isUnreserved hunreserved)
    · exact .inl (portText_chars hc).1
  refine ⟨_, ofUrl?_web hscheme hauthority hpath hslash hquery, rfl, rfl, fun hat => ?_⟩
  rcases hauthority _ hat with hc | hc <;> revert hc <;> decide

private theorem web_url {endpoint authority : Text}
    (h : endpoint = "http://" ++ authority ∨ endpoint = "https://" ++ authority) :
    ∃ scheme : Text, (scheme = "http" ∨ scheme = "https") ∧ ∀ path, endpoint ++ path =
      scheme ++ .char ':' :: .char '/' :: .char '/' :: (authority ++ path) := by
  rcases h with rfl | rfl
  · exact ⟨"http", .inl rfl, fun path => by simp [List.append_assoc]; rfl⟩
  · exact ⟨"https", .inr rfl, fun path => by simp [List.append_assoc]; rfl⟩

section Web

variable {endpoint path : Text}

private theorem tidy_removeDots (h : Tidy isPathChar (sentPath path)) :
    Tidy isPathChar (removeDots path) := by
  unfold sentPath at h
  dsimp only at h
  split at h
  · exact h
  · exact h.of_cons (by decide)

private theorem sentPath_slash (path : Text) : ∃ rest, sentPath path = .char '/' :: rest := by
  unfold sentPath
  dsimp only
  split
  · next hhead =>
    obtain ⟨rest, hrest⟩ := List.head?_eq_some_iff.mp hhead
    exact ⟨rest, hrest⟩
  · exact ⟨_, rfl⟩

/-- What a prepared URL on a web endpoint reads as: the path without its dot segments,
the query of the fields, which hold whole characters only, and no user name. -/
theorem prepared_parts {url : Text} {fields : List (Text × Text)}
    (hendpoint : IsWebEndpoint endpoint) (hpath : Tidy isPathChar path)
    (hslash : ∃ rest, path = .char '/' :: rest) (hsent : Tidy isPathChar (sentPath path))
    (h : prepare (endpoint ++ path) fields = .ok url) :
    encodeQuery? fields = some (encodeQuery fields) ∧
      ∃ parts, Parts.ofUrl? url = some parts ∧ parts.path = sentPath path ∧
        parts.query = encodeQuery fields ∧ .char '@' ∉ parts.authority := by
  obtain ⟨authority, hauthority, hstart⟩ := hendpoint
  obtain ⟨scheme, hscheme, hurl⟩ := web_url hstart
  rw [hurl, prepare_web hscheme hauthority hpath hslash (tidy_removeDots hsent)] at h
  cases hread : readHostPort? true authority with
  | none =>
      rw [hread] at h
      cases h
  | some hp =>
      simp only [hread] at h
      split at h
      · cases h
      · cases hquery : encodeQuery? fields with
        | none =>
            rw [hquery] at h
            cases h
        | some query =>
            have hfields : query = encodeQuery fields := by
              unfold encodeQuery? at hquery
              split at hquery
              · cases hquery
              · exact (Option.some.inj hquery).symm
            rw [hquery, hfields] at h
            refine ⟨by rw [hfields], ?_⟩
            have hhost := readHostPort?_host hauthority hread
            dsimp only at h
            split at h
            · next hrequoted =>
              cases h
              exact sent_parts hscheme hhost hsent (sentPath_slash path) (encodeQuery_tidy fields)
                hrequoted
            · cases h

/-- Characters of a host without a port. -/
def isHostChar (c : CodePoint) : Bool :=
  isAuthorityChar c && c != ':'

/-- An endpoint of the web that is a usable host without a port. -/
def IsPlainEndpoint (endpoint : Text) : Prop :=
  ∃ host : Text, (∀ c ∈ host, isHostChar c = true) ∧ isUnusable host = false ∧
    (endpoint = "http://" ++ host ∨ endpoint = "https://" ++ host)

private theorem isHostChar_spec {c : CodePoint} (h : isHostChar c = true) :
    isAuthorityChar c = true ∧ isNameChar c = true ∧ c ≠ .char '[' ∧ c ≠ .char '%' ∧
      c ≠ .char ':' ∧ (c.asciiLower = .char '*' → c = .char '*') ∧
      (c.asciiLower = .char '.' → c = .char '.') := by
  have hall : ∀ n : Fin 128, (!isHostChar (.ofNat n) || (isNameChar (.ofNat n) &&
      ((CodePoint.ofNat n).asciiLower != .char '*' || CodePoint.ofNat n == .char '*') &&
      ((CodePoint.ofNat n).asciiLower != .char '.' || CodePoint.ofNat n == .char '.'))) = true := by
    decide
  have hauthority : isAuthorityChar c = true := (Bool.and_eq_true _ _ ▸ h).1
  have hspec := isAuthorityChar_spec hauthority
  have hc := of_ascii (p := fun c => !isHostChar c || (isNameChar c &&
    (c.asciiLower != .char '*' || c == .char '*') &&
    (c.asciiLower != .char '.' || c == .char '.'))) hall (Nat.lt_trans hspec.2.1 (by decide))
  simp only [h, Bool.not_true, Bool.false_or, Bool.and_eq_true, Bool.or_eq_true, beq_iff_eq,
    bne_iff_ne] at hc
  obtain ⟨⟨hname, hstar⟩, hdot⟩ := hc
  have hcolon : c ≠ .char ':' := by
    rintro rfl
    revert h
    decide
  exact ⟨hauthority, hname, hspec.2.2.1, hspec.2.2.2.2.1, hcolon,
    fun heq => hstar.resolve_left (not_not_intro heq),
    fun heq => hdot.resolve_left (not_not_intro heq)⟩

private theorem escapesControl_of_not_mem {t : Text} (h : .char '%' ∉ t) :
    escapesControl t = false := by
  induction t with
  | nil => rfl
  | cons c t ih =>
      rw [List.mem_cons, not_or] at h
      rw [escapesControl.eq_def]
      split
      · next heq =>
        cases heq
        exact absurd rfl h.1
      · next heq =>
        cases heq
        exact ih h.2
      · rfl

private theorem isEscapedOf_of_all {p : CodePoint → Bool} {t : Text}
    (h : ∀ c ∈ t, p c = true ∧ c ≠ .char '%') : isEscapedOf p t = true := by
  induction t with
  | nil => rfl
  | cons c t ih =>
      have hc := h c List.mem_cons_self
      rw [isEscapedOf.eq_def]
      split
      · rfl
      · next heq =>
        cases heq
        exact absurd rfl hc.2
      · next heq =>
        cases heq
        simp [hc, ih fun d hd => h d (List.mem_cons_of_mem c hd)]

/-- A plain host name can be read, and stays usable in its normal form. -/
private theorem readHostPort?_plain {host : Text} (h : ∀ c ∈ host, isHostChar c = true)
    (husable : isUnusable host = false) :
    ∃ hp, readHostPort? true host = some hp ∧ isUnusable hp.host = false := by
  have hpercent : .char '%' ∉ host := fun hmem => (isHostChar_spec (h _ hmem)).2.2.2.1 rfl
  have hcolon : .char ':' ∉ host := fun hmem => (isHostChar_spec (h _ hmem)).2.2.2.2.1 rfl
  have hname : isName host = true := isEscapedOf_of_all fun c hc =>
    ⟨(isHostChar_spec (h c hc)).2.1, (isHostChar_spec (h c hc)).2.2.2.1⟩
  have hlower : isUnusable (host.map CodePoint.asciiLower) = false := by
    cases host with
    | nil => cases husable
    | cons c rest =>
        obtain ⟨_, _, _, _, _, hstar, hdot⟩ := isHostChar_spec (h c List.mem_cons_self)
        have hother : c ≠ .char '*' ∧ c ≠ .char '.' := by
          constructor <;> rintro rfl <;> cases husable
        have hlowerStar : c.asciiLower ≠ .char '*' := fun heq => hother.1 (hstar heq)
        have hlowerDot : c.asciiLower ≠ .char '.' := fun heq => hother.2 (hdot heq)
        simp [isUnusable, hlowerStar, hlowerDot]
  obtain ⟨normal, hnormal, hstays⟩ : ∃ normal, normalizeName? host = some normal ∧
      isUnusable normal = false := by
    unfold normalizeName?
    rw [escapesControl_of_not_mem hpercent, tidyName_of_not_mem hpercent]
    split
    · exact ⟨host, rfl, husable⟩
    · exact ⟨_, rfl, hlower⟩
  refine ⟨⟨normal, none⟩, ?_, hstays⟩
  unfold readHostPort?
  split
  · next heq => exact absurd rfl (isHostChar_spec (h _ List.mem_cons_self)).2.2.1
  · simp only [Text.cutFirst_of_not_mem hcolon, hname, if_true, List.drop_length, hnormal]
    rfl

/-- A URL on a plain endpoint can be prepared with any fields of whole characters. -/
theorem prepare_plain {fields : List (Text × Text)} (hendpoint : IsPlainEndpoint endpoint)
    (hpath : Tidy isPathChar path) (hslash : ∃ rest, path = .char '/' :: rest)
    (hsent : Tidy isPathChar (sentPath path))
    (hfields : encodeQuery? fields = some (encodeQuery fields)) :
    ∃ url, prepare (endpoint ++ path) fields = .ok url := by
  obtain ⟨host, hhost, husable, hstart⟩ := hendpoint
  have hauthority : ∀ c ∈ host, isAuthorityChar c = true := fun c hc =>
    (isHostChar_spec (hhost c hc)).1
  obtain ⟨hp, hread, hstays⟩ := readHostPort?_plain hhost husable
  obtain ⟨scheme, hscheme, hurl⟩ := web_url hstart
  rw [hurl, prepare_web hscheme hauthority hpath hslash (tidy_removeDots hsent), hread]
  simp only [hstays, Bool.false_eq_true, if_false, hfields]
  rw [requote?_web hscheme (readHostPort?_host hauthority hread) hsent (encodeQuery_tidy fields)]
  exact ⟨_, rfl⟩

end Web

end Url

end DataLake
