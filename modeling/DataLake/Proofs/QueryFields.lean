import DataLake.Proofs.CanonicalForm
import DataLake.Proofs.LetterCase

/-!
URLs whose query is exchanged. A URL is taken apart from its front, so that another query in
it changes nothing but the query that is found. The fields of that query come from its pieces
between ampersands, each piece on its own.
-/

namespace DataLake

namespace Text

variable {p : CodePoint → Bool} {sep : CodePoint}

theorem takeWhile_append_cons {c : CodePoint} (hc : p c = false) (t u : Text) :
    (t ++ c :: u).takeWhile p = t.takeWhile p ∧
      (t ++ c :: u).dropWhile p = t.dropWhile p ++ c :: u := by
  induction t with
  | nil => simp [hc]
  | cons d t ih =>
      rw [List.cons_append, List.takeWhile_cons, List.takeWhile_cons, List.dropWhile_cons,
        List.dropWhile_cons]
      split
      · exact ⟨by rw [ih.1], ih.2⟩
      · exact ⟨rfl, rfl⟩

/-- Characters other than the separator can be left out before or after splitting. -/
theorem splitOn_filter (hsep : p sep = true) (t : Text) :
    splitOn sep (t.filter p) = (splitOn sep t).map (List.filter p) := by
  induction t with
  | nil => rfl
  | cons c t ih =>
      by_cases hc : c = sep
      · rw [hc, List.filter_cons_of_pos hsep, splitOn, if_pos rfl, splitOn, if_pos rfl, ih]
        rfl
      · obtain ⟨piece, pieces, hsplit, hcons⟩ := splitOn_cons_of_ne hc t
        rw [hcons, List.map_cons]
        rw [hsplit, List.map_cons] at ih
        cases hp : p c with
        | true =>
            obtain ⟨piece', pieces', hsplit', hcons'⟩ := splitOn_cons_of_ne hc (t.filter p)
            rw [ih, List.cons.injEq] at hsplit'
            rw [List.filter_cons_of_pos hp, hcons', List.filter_cons_of_pos hp, hsplit'.1, hsplit'.2]
        | false => rw [List.filter_cons_of_neg (by simp [hp]), ih, List.filter_cons_of_neg (by simp [hp])]

end Text

namespace Url

/-- The characters that are not dropped when a URL is taken apart. -/
def isKept (c : CodePoint) : Bool :=
  c != .char '\t' && c != .char '\r' && c != .char '\n'

theorem cutScheme_append (front rest : Text) :
    cutScheme (front ++ .char '?' :: rest) =
      ((cutScheme front).1, (cutScheme front).2 ++ .char '?' :: rest) := by
  by_cases hcolon : .char ':' ∈ front
  · obtain ⟨name, more, rfl, hname⟩ := List.eq_append_cons_of_mem hcolon
    have hcut := Text.cutFirst_append_cons hname more
    have hcut' := Text.cutFirst_append_cons hname (more ++ .char '?' :: rest)
    rw [List.append_assoc, List.cons_append]
    unfold cutScheme
    rw [hcut, hcut']
    dsimp only
    split
    · rfl
    · simp
  · have hfront : cutScheme front = ([], front) := by
      unfold cutScheme
      rw [Text.cutFirst_of_not_mem hcolon]
    rw [hfront]
    unfold cutScheme
    by_cases hlater : .char ':' ∈ rest
    · -- A colon after the question mark ends no scheme.
      obtain ⟨more, after, rfl, hmore⟩ := List.eq_append_cons_of_mem hlater
      have hname : .char ':' ∉ front ++ .char '?' :: more := by
        simp only [List.mem_append, List.mem_cons, not_or]
        exact ⟨hcolon, by decide, hmore⟩
      have hcut := Text.cutFirst_append_cons hname after
      rw [List.append_assoc, List.cons_append] at hcut
      rw [hcut]
      dsimp only
      rw [if_neg]
      simp only [List.all_append, List.all_cons, Bool.and_eq_true, not_and]
      intro _ _ hquestion
      exact absurd hquestion (by decide)
    · have hnone : .char ':' ∉ front ++ .char '?' :: rest := by
        simp only [List.mem_append, List.mem_cons, not_or]
        exact ⟨hcolon, by decide, hlater⟩
      rw [Text.cutFirst_of_not_mem hnone]

theorem cutAuthority_append (front rest : Text) :
    cutAuthority (front ++ .char '?' :: rest) =
      ((cutAuthority front).1, (cutAuthority front).2 ++ .char '?' :: rest) := by
  have hplain {t : Text} (ht : ∀ more, t ≠ .char '/' :: .char '/' :: more) :
      cutAuthority t = ([], t) := by
    unfold cutAuthority
    split
    · next more => exact absurd rfl (ht more)
    · rfl
  by_cases hslashes : ∃ more, front = .char '/' :: .char '/' :: more
  · obtain ⟨more, rfl⟩ := hslashes
    obtain ⟨htake, hdrop⟩ := Text.takeWhile_append_cons
      (p := fun c => c != .char '/' && c != .char '?' && c != .char '#') (c := .char '?') (by decide)
      more rest
    exact Prod.ext htake hdrop
  · have hfront : ∀ more, front ≠ .char '/' :: .char '/' :: more := fun more h => hslashes ⟨more, h⟩
    rw [hplain hfront, hplain]
    intro more h
    match front with
    | [] => cases h
    | [_] => cases h
    | c :: d :: front =>
        cases h
        exact hfront front rfl

theorem mem_of_cutScheme {t : Text} {c : CodePoint} (h : c ∈ (cutScheme t).2) : c ∈ t := by
  by_cases hcolon : .char ':' ∈ t
  · obtain ⟨name, more, rfl, hname⟩ := List.eq_append_cons_of_mem hcolon
    unfold cutScheme at h
    rw [Text.cutFirst_append_cons hname] at h
    dsimp only at h
    split at h
    · exact List.mem_append_right name (List.mem_cons_of_mem _ h)
    · exact h
  · unfold cutScheme at h
    rwa [Text.cutFirst_of_not_mem hcolon] at h

theorem mem_of_cutAuthority {t : Text} {c : CodePoint} (h : c ∈ (cutAuthority t).2) : c ∈ t := by
  unfold cutAuthority at h
  split at h
  · exact List.mem_cons_of_mem _ (List.mem_cons_of_mem _ (List.dropWhile_sublist _ |>.subset h))
  · exact h

/-- A URL with the given query, and what stands before and after it. -/
structure Queries (url front query tail : Text) : Prop where
  url_eq : url = front ++ .char '?' :: (query ++ tail)
  front : .char '?' ∉ front ∧ .char '#' ∉ front
  query : .char '#' ∉ query
  tail : tail = [] ∨ tail.head? = some (.char '#')

/-- What is left of a URL without the blanks at its front and the line ends in it. -/
def tidied (url : Text) : Text :=
  (url.dropWhile fun c => c.toNat ≤ 0x20).filter isKept

theorem mem_of_mem_tidied {t : Text} {c : CodePoint} (h : c ∈ tidied t) : c ∈ t :=
  (List.dropWhile_sublist _).subset (List.mem_of_mem_filter h)

theorem tidied_append (front rest : Text) :
    tidied (front ++ .char '?' :: rest) = tidied front ++ .char '?' :: rest.filter isKept := by
  have hdrop := (Text.takeWhile_append_cons (p := fun c => c.toNat ≤ 0x20) (c := .char '?')
    (by decide) front rest).2
  unfold tidied
  rw [hdrop, List.filter_append, List.filter_cons_of_pos (by decide)]

theorem cutFirst_fragment {t tail : Text} (ht : .char '#' ∉ t)
    (htail : tail = [] ∨ tail.head? = some (.char '#')) :
    (Text.cutFirst '#' (t ++ tail)).1 = t ∧ ((Text.cutFirst '#' (t ++ tail)).2).getD [] = tail.tail := by
  cases tail with
  | nil =>
      rw [List.append_nil, Text.cutFirst_of_not_mem ht]
      exact ⟨rfl, rfl⟩
  | cons c tail =>
      have hc : c = .char '#' := Option.some.inj (htail.resolve_left (List.cons_ne_nil _ _))
      rw [hc, Text.cutFirst_append_cons ht]
      exact ⟨rfl, rfl⟩

theorem ofUrl?_eq (url : Text) : Parts.ofUrl? url =
    let (scheme, rest) := cutScheme (tidied url)
    let (authority, rest) := cutAuthority rest
    let (rest, fragment) := Text.cutFirst '#' rest
    let (path, query) := Text.cutFirst '?' rest
    if isAuthority authority then
      some ⟨scheme, authority, path, query.getD [], fragment.getD []⟩
    else none :=
  rfl

/-- Another query changes nothing else of what a URL is taken apart into. -/
theorem ofUrl?_queries (front tail : Text) :
    ∃ parts : Option Parts, ∀ url query, Queries url front query tail →
      Parts.ofUrl? url = parts.map fun parts => { parts with query := query.filter isKept } := by
  obtain ⟨scheme, rest, hscheme⟩ : ∃ scheme rest, cutScheme (tidied front) = (scheme, rest) :=
    ⟨_, _, rfl⟩
  obtain ⟨authority, path, hauthority⟩ : ∃ authority path, cutAuthority rest = (authority, path) :=
    ⟨_, _, rfl⟩
  refine ⟨if isAuthority authority then
    some ⟨scheme, authority, path, [], (tail.filter isKept).tail⟩ else none, ?_⟩
  intro url query h
  have hmem {c : CodePoint} (hc : c ∈ path) : c ∈ front := by
    apply mem_of_mem_tidied
    apply mem_of_cutScheme
    rw [hscheme]
    apply mem_of_cutAuthority
    rwa [hauthority]
  have hfree : .char '#' ∉ path ++ .char '?' :: query.filter isKept := by
    simp only [List.mem_append, List.mem_cons, not_or]
    exact ⟨fun hc => h.front.2 (hmem hc), by decide, fun hc => h.query (List.mem_of_mem_filter hc)⟩
  have htail : tail.filter isKept = [] ∨ (tail.filter isKept).head? = some (.char '#') := by
    rcases h.tail with rfl | hhead
    · exact .inl rfl
    · obtain ⟨more, rfl⟩ := List.head?_eq_some_iff.mp hhead
      exact .inr rfl
  obtain ⟨hfragment, hafter⟩ := cutFirst_fragment hfree htail
  have hpath := Text.cutFirst_append_cons (fun hc => h.front.1 (hmem hc)) (query.filter isKept)
  have hurl : tidied url =
      tidied front ++ .char '?' :: (query.filter isKept ++ tail.filter isKept) := by
    rw [h.url_eq, tidied_append, List.filter_append]
  rw [ofUrl?_eq, hurl, cutScheme_append, hscheme]
  dsimp only
  rw [cutAuthority_append, hauthority]
  dsimp only
  rw [← List.cons_append, ← List.append_assoc, hfragment, hafter, hpath]
  split <;> rfl

/-- The field of a piece between ampersands, with its name in lower case. A piece without any
character has none. -/
def pieceFields (piece : Text) : List (Text × Text) :=
  if (piece.filter isKept).isEmpty then []
  else
    let (key, value) := Text.cutFirst '=' (piece.filter isKept)
    [(Text.lower (decodeField key), decodeField (value.getD []))]

/-- Each piece of a query gives its own field. -/
theorem lowered_decodeQuery (query : Text) :
    Signing.lowered (decodeQuery (query.filter isKept)) =
      (Text.splitOn '&' query).flatMap pieceFields := by
  unfold decodeQuery
  rw [Text.splitOn_filter (by decide)]
  induction Text.splitOn '&' query with
  | nil => rfl
  | cons piece pieces ih =>
      rw [List.flatMap_cons, ← ih, pieceFields, List.map_cons, List.filter_cons]
      cases hempty : (piece.filter isKept).isEmpty <;> rfl

/-- Two spellings of a name that read as names which differ in the case of ASCII letters at
most. -/
structure Respells (key key' : Text) : Prop where
  equals : .char '=' ∉ key ∧ .char '=' ∉ key'
  empty : key.filter isKept = [] ↔ key'.filter isKept = []
  name : Text.fold (decodeField (key.filter isKept)) = Text.fold (decodeField (key'.filter isKept))

/-- A name may be written with its letters in the other case. -/
theorem Respells.of_fold_eq {key key' : Text} (hkey : .char '=' ∉ key)
    (h : Text.fold key = Text.fold key') : Respells key key' := by
  have hequals (c : CodePoint) : c.asciiLower = .char '=' ↔ c = .char '=' :=
    CodePoint.asciiLower_eq_iff (by decide)
  have hmem (t : Text) : .char '=' ∈ Text.fold t ↔ .char '=' ∈ t := by
    unfold Text.fold
    rw [List.mem_map]
    constructor
    · rintro ⟨c, hc, heq⟩
      exact (hequals c).mp heq ▸ hc
    · exact fun hc => ⟨_, hc, rfl⟩
  have hfilter (t : Text) : Text.fold (t.filter isKept) = (Text.fold t).filter isKept := by
    unfold Text.fold
    rw [List.filter_map]
    refine congrArg (List.map _) (List.filter_congr fun c _ => ?_)
    exact (CodePoint.apply_asciiLower (by decide) c).symm
  have hkept : Text.fold (key.filter isKept) = Text.fold (key'.filter isKept) := by
    rw [hfilter, hfilter, h]
  refine ⟨⟨hkey, ?_⟩, ?_, ?_⟩
  · rwa [← hmem, ← h, hmem]
  · rw [← List.map_eq_nil_iff (f := CodePoint.asciiLower), ← List.map_eq_nil_iff
      (f := CodePoint.asciiLower) (l := key'.filter isKept)]
    exact iff_of_eq (congrArg (· = []) hkept)
  · rw [← decodeField_fold, hkept, decodeField_fold]

theorem pieceFields_of_respells {key key' rest : Text} (h : Respells key key')
    (hrest : rest = [] ∨ rest.head? = some (.char '=')) :
    pieceFields (key ++ rest) = pieceFields (key' ++ rest) := by
  have hname := Text.lower_eq_of_fold_eq h.name
  have hfree {t : Text} (ht : .char '=' ∉ t) : .char '=' ∉ t.filter isKept :=
    fun hc => ht (List.mem_of_mem_filter hc)
  unfold pieceFields
  rw [List.filter_append, List.filter_append]
  rcases hrest with rfl | hhead
  · rw [List.filter_nil, List.append_nil, List.append_nil,
      Text.cutFirst_of_not_mem (hfree h.equals.1), Text.cutFirst_of_not_mem (hfree h.equals.2)]
    have hempty : (key.filter isKept).isEmpty = (key'.filter isKept).isEmpty := by
      rw [Bool.eq_iff_iff, List.isEmpty_iff, List.isEmpty_iff]
      exact h.empty
    dsimp only
    rw [hname, hempty]
  · obtain ⟨value, rfl⟩ := List.head?_eq_some_iff.mp hhead
    rw [List.filter_cons_of_pos (by decide), Text.cutFirst_append_cons (hfree h.equals.1),
      Text.cutFirst_append_cons (hfree h.equals.2)]
    dsimp only
    rw [hname, if_neg (by simp), if_neg (by simp)]

end Url

end DataLake
