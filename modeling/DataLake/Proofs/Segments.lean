import DataLake.Path
import DataLake.Url.Prepared
import Mathlib.Data.List.DropRight
import Mathlib.Data.List.TakeWhile

/-!
Texts as lists of segments. Splitting a text at a separator and joining the
pieces are inverse to each other as long as no piece holds the separator, so
that what is said about paths can be said about their segments. Removing dot
segments from a path is a fold over them.
-/

namespace DataLake

namespace Text

variable {sep : CodePoint}

theorem splitOn_ne_nil (sep : CodePoint) (t : Text) : splitOn sep t ≠ [] := by
  cases t with
  | nil => simp [splitOn]
  | cons c t =>
      unfold splitOn
      split
      · simp
      · split <;> simp

theorem splitOn_cons_of_ne {c : CodePoint} (hc : c ≠ sep) (t : Text) :
    ∃ piece pieces, splitOn sep t = piece :: pieces ∧
      splitOn sep (c :: t) = (c :: piece) :: pieces := by
  obtain ⟨piece, pieces, hsplit⟩ := List.exists_cons_of_ne_nil (splitOn_ne_nil sep t)
  refine ⟨piece, pieces, hsplit, ?_⟩
  unfold splitOn
  rw [if_neg hc, hsplit]

theorem splitOn_of_not_mem {t : Text} (h : sep ∉ t) : splitOn sep t = [t] := by
  induction t with
  | nil => rfl
  | cons c t ih =>
      rw [List.mem_cons, not_or] at h
      unfold splitOn
      rw [if_neg (Ne.symm h.1), ih h.2]

theorem splitOn_append_cons (t u : Text) :
    splitOn sep (t ++ sep :: u) = splitOn sep t ++ splitOn sep u := by
  induction t with
  | nil => simp [splitOn]
  | cons c t ih =>
      by_cases hc : c = sep
      · rw [hc]
        simp [splitOn, ih]
      · obtain ⟨piece, pieces, hsplit, hcons⟩ := splitOn_cons_of_ne hc t
        obtain ⟨piece', pieces', hsplit', hcons'⟩ := splitOn_cons_of_ne hc (t ++ sep :: u)
        rw [hsplit, hsplit', List.cons_append, List.cons.injEq] at ih
        rw [hcons, List.cons_append, hcons', List.cons_append, ih.1, ih.2]

theorem not_mem_of_mem_splitOn {t piece : Text} (h : piece ∈ splitOn sep t) : sep ∉ piece := by
  induction t generalizing piece with
  | nil =>
      rw [List.mem_singleton.mp h]
      exact List.not_mem_nil
  | cons c t ih =>
      by_cases hc : c = sep
      · unfold splitOn at h
        rw [if_pos hc] at h
        rcases List.mem_cons.mp h with rfl | h
        · exact List.not_mem_nil
        · exact ih h
      · obtain ⟨first, pieces, hsplit, hcons⟩ := splitOn_cons_of_ne hc t
        rw [hcons] at h
        rcases List.mem_cons.mp h with rfl | h
        · have hfirst := ih (hsplit ▸ List.mem_cons_self)
          rw [List.mem_cons, not_or]
          exact ⟨Ne.symm hc, hfirst⟩
        · exact ih (hsplit ▸ List.mem_cons_of_mem first h)

@[simp] theorem joinWith_singleton (sep piece : Text) : joinWith sep [piece] = piece := by
  simp [joinWith, List.intercalate]

theorem joinWith_cons (sep piece : Text) {pieces : List Text} (h : pieces ≠ []) :
    joinWith sep (piece :: pieces) = piece ++ (sep ++ joinWith sep pieces) := by
  cases pieces with
  | nil => exact absurd rfl h
  | cons next pieces => simp [joinWith, List.intercalate]

theorem joinWith_append (sep : Text) {first second : List Text} (hfirst : first ≠ [])
    (hsecond : second ≠ []) :
    joinWith sep (first ++ second) = joinWith sep first ++ (sep ++ joinWith sep second) := by
  induction first with
  | nil => exact absurd rfl hfirst
  | cons piece first ih =>
      by_cases hempty : first = []
      · rw [hempty, joinWith_singleton]
        exact joinWith_cons sep piece hsecond
      · have hmore : first ++ second ≠ [] := by simp [hempty]
        rw [List.cons_append, joinWith_cons sep piece hmore, joinWith_cons sep piece hempty,
          ih hempty]
        simp only [List.append_assoc]

theorem joinWith_splitOn (t : Text) : joinWith [sep] (splitOn sep t) = t := by
  induction t with
  | nil => simp [splitOn]
  | cons c t ih =>
      by_cases hc : c = sep
      · unfold splitOn
        rw [if_pos hc, joinWith_cons _ _ (splitOn_ne_nil sep t), ih, hc]
        rfl
      · obtain ⟨piece, pieces, hsplit, hcons⟩ := splitOn_cons_of_ne hc t
        rw [hsplit] at ih
        rw [hcons]
        by_cases hempty : pieces = []
        · rw [hempty, joinWith_singleton] at ih ⊢
          rw [ih]
        · rw [joinWith_cons _ _ hempty] at ih ⊢
          rw [List.cons_append, ih]

theorem splitOn_joinWith {pieces : List Text} (hne : pieces ≠ [])
    (h : ∀ piece ∈ pieces, sep ∉ piece) : splitOn sep (joinWith [sep] pieces) = pieces := by
  induction pieces with
  | nil => exact absurd rfl hne
  | cons piece pieces ih =>
      have hpiece := splitOn_of_not_mem (h piece List.mem_cons_self)
      by_cases hempty : pieces = []
      · rw [hempty, joinWith_singleton, hpiece]
      · rw [joinWith_cons _ _ hempty]
        change splitOn sep (piece ++ sep :: joinWith [sep] pieces) = _
        rw [splitOn_append_cons, hpiece,
          ih hempty fun next hnext => h next (List.mem_cons_of_mem piece hnext)]
        rfl

theorem mem_joinWith {sep : Text} {pieces : List Text} {c : CodePoint}
    (h : c ∈ joinWith sep pieces) : c ∈ sep ∨ ∃ piece ∈ pieces, c ∈ piece := by
  induction pieces with
  | nil => cases h
  | cons piece pieces ih =>
      by_cases hempty : pieces = []
      · rw [hempty, joinWith_singleton] at h
        exact .inr ⟨piece, List.mem_cons_self, h⟩
      · rw [joinWith_cons _ _ hempty, List.mem_append, List.mem_append] at h
        rcases h with h | h | h
        · exact .inr ⟨piece, List.mem_cons_self, h⟩
        · exact .inl h
        · refine (ih h).imp_right ?_
          rintro ⟨next, hnext, hc⟩
          exact ⟨next, List.mem_cons_of_mem piece hnext, hc⟩

theorem mem_joinWith_of_mem {sep : Text} {pieces : List Text} {piece : Text}
    (hpiece : piece ∈ pieces) {c : CodePoint} (hc : c ∈ piece) : c ∈ joinWith sep pieces := by
  induction pieces with
  | nil => cases hpiece
  | cons first pieces ih =>
      by_cases hempty : pieces = []
      · rw [hempty] at hpiece ⊢
        rw [joinWith_singleton, ← List.mem_singleton.mp hpiece]
        exact hc
      · rw [joinWith_cons _ _ hempty]
        rcases List.mem_cons.mp hpiece with rfl | hpiece
        · exact List.mem_append_left _ hc
        · exact List.mem_append_right _ (List.mem_append_right _ (ih hpiece))

/-- A joined text is another one, or goes on after a separator where the other
one ends, exactly if its pieces begin with those of the other one. -/
theorem joinWith_begins_iff {base pieces : List Text} (hbase : base ≠ []) (hpieces : pieces ≠ [])
    (hbaseFree : ∀ piece ∈ base, sep ∉ piece) (hpiecesFree : ∀ piece ∈ pieces, sep ∉ piece) :
    (joinWith [sep] pieces = joinWith [sep] base ∨
      joinWith [sep] base ++ [sep] <+: joinWith [sep] pieces) ↔ base <+: pieces := by
  constructor
  · rintro (heq | ⟨rest, hrest⟩)
    · have hsplit := congrArg (splitOn sep) heq
      rw [splitOn_joinWith hpieces hpiecesFree, splitOn_joinWith hbase hbaseFree] at hsplit
      exact ⟨[], by rw [List.append_nil, hsplit]⟩
    · have hsplit := congrArg (splitOn sep) hrest
      rw [List.append_assoc, List.singleton_append, splitOn_append_cons,
        splitOn_joinWith hpieces hpiecesFree, splitOn_joinWith hbase hbaseFree] at hsplit
      exact ⟨_, hsplit⟩
  · rintro ⟨more, rfl⟩
    by_cases hmore : more = []
    · left
      rw [hmore, List.append_nil]
    · right
      rw [joinWith_append _ hbase hmore, ← List.append_assoc]
      exact List.prefix_append _ _

theorem endsWith_iff {t tail : Text} : endsWith t tail = true ↔ tail <:+ t := by
  unfold endsWith
  rw [List.isPrefixOf_iff_prefix, List.reverse_prefix]

/-- A text ends in a separator and a piece exactly if the piece is the last of
several. -/
theorem endsWith_piece_iff {pieces : List Text} {name : Text} (hne : pieces ≠ [])
    (hpieces : ∀ piece ∈ pieces, sep ∉ piece) (hname : sep ∉ name) (first : Text) :
    endsWith (joinWith [sep] (first :: pieces)) (sep :: name) = true ↔
      pieces.getLast? = some name := by
  rw [endsWith_iff, joinWith_cons _ _ hne]
  constructor
  · rintro ⟨before, hbefore⟩
    have hsplit := congrArg (splitOn sep) hbefore
    change splitOn sep (before ++ sep :: name) =
      splitOn sep (first ++ sep :: joinWith [sep] pieces) at hsplit
    rw [splitOn_append_cons, splitOn_append_cons, splitOn_of_not_mem hname,
      splitOn_joinWith hne hpieces] at hsplit
    have hlast := congrArg List.getLast? hsplit
    rw [List.getLast?_concat, List.getLast?_append] at hlast
    cases hpiece : pieces.getLast? with
    | none => exact absurd (List.getLast?_eq_none_iff.mp hpiece) hne
    | some last =>
        rw [hpiece, Option.some_or] at hlast
        exact hlast.symm
  · intro hlast
    obtain ⟨before, rfl⟩ := List.getLast?_eq_some_iff.mp hlast
    by_cases hempty : before = []
    · rw [hempty, List.nil_append, joinWith_singleton]
      exact List.suffix_append _ _
    · rw [joinWith_append _ hempty (by simp), joinWith_singleton]
      exact ⟨first ++ ([sep] ++ joinWith [sep] before), by simp⟩

end Text

namespace Path

/-- One more segment after those that were kept: one dot is dropped, and two dots
take away the last one, if any. -/
def follow (kept : List Text) (segment : Text) : List Text :=
  if segment = "." then kept
  else if segment = ".." then kept.dropLast
  else kept ++ [segment]

/-- The segments left when those of one and of two dots are carried out. -/
def settle (segments : List Text) : List Text :=
  segments.foldl follow []

/-- Whether a segment says where to go instead of naming something. -/
def isDots (segment : Text) : Bool :=
  segment = "." || segment = ".."

/-- The segments below the leading slash, which an empty first segment stands for. -/
def belowSlash (kept : List Text) : List Text :=
  if kept.head? = some [] then kept.tail else kept

/-- A path that ends in a dot segment keeps a slash at its end. -/
def closing (segments : List Text) : List Text :=
  if segments.getLast?.any isDots then [[]] else []

/-- The segments below the leading slash of a path, given those it has before its dot
segments are carried out. Those may take away the leading slash, which is then put
back. -/
def settled (segments : List Text) : List Text :=
  let below := belowSlash (settle ([] :: segments)) ++ closing segments
  if below = [] then [[]] else below

theorem settled_ne_nil (segments : List Text) : settled segments ≠ [] := by
  unfold settled
  dsimp only
  split
  · simp
  · next hne => exact hne

private theorem mem_foldl_follow {segments kept : List Text} {segment : Text}
    (h : segment ∈ segments.foldl follow kept) : segment ∈ kept ∨ segment ∈ segments := by
  induction segments generalizing kept with
  | nil => exact .inl h
  | cons next segments ih =>
      rw [List.foldl_cons] at h
      rcases ih h with hkept | hlater
      · unfold follow at hkept
        split at hkept
        · exact .inl hkept
        · split at hkept
          · exact .inl ((List.dropLast_sublist kept).subset hkept)
          · rcases List.mem_append.mp hkept with hkept | hnext
            · exact .inl hkept
            · exact .inr (List.mem_cons.mpr (.inl (List.mem_singleton.mp hnext)))
      · exact .inr (List.mem_cons_of_mem next hlater)

private theorem mem_belowSlash {kept : List Text} {segment : Text} (h : segment ∈ belowSlash kept) :
    segment ∈ kept := by
  unfold belowSlash at h
  split at h
  · exact List.mem_of_mem_tail h
  · exact h

private theorem mem_closing {segments : List Text} {segment : Text}
    (h : segment ∈ closing segments) : segment = [] := by
  unfold closing at h
  split at h
  · exact List.mem_singleton.mp h
  · cases h

/-- Every segment that is left was there, or is an empty one at an end. -/
theorem mem_settled {segments : List Text} {segment : Text} (h : segment ∈ settled segments) :
    segment = [] ∨ segment ∈ segments := by
  unfold settled at h
  dsimp only at h
  split at h
  · exact .inl (List.mem_singleton.mp h)
  · rcases List.mem_append.mp h with h | h
    · have hstart : settle ([] :: segments) = segments.foldl follow [[]] := rfl
      have hkept := mem_belowSlash h
      rw [hstart] at hkept
      exact (mem_foldl_follow hkept).imp_left List.mem_singleton.mp
    · exact .inl (mem_closing h)

/-- A change of segments that leaves alone whether one is empty, or of dots. -/
structure KeepsDots (f : Text → Text) : Prop where
  empty : ∀ segment, f segment = [] ↔ segment = []
  one : ∀ segment, f segment = "." ↔ segment = "."
  two : ∀ segment, f segment = ".." ↔ segment = ".."

section Map

variable {f : Text → Text}

private theorem follow_map (h : KeepsDots f) (kept : List Text) (segment : Text) :
    follow (kept.map f) (f segment) = (follow kept segment).map f := by
  unfold follow
  simp only [h.one, h.two]
  split
  · rfl
  · split
    · rw [List.map_dropLast]
    · rw [List.map_append, List.map_singleton]

private theorem foldl_follow_map (h : KeepsDots f) (segments kept : List Text) :
    (segments.map f).foldl follow (kept.map f) = (segments.foldl follow kept).map f := by
  induction segments generalizing kept with
  | nil => rfl
  | cons segment segments ih =>
      rw [List.map_cons, List.foldl_cons, List.foldl_cons, follow_map h, ih]

private theorem belowSlash_map (h : KeepsDots f) (kept : List Text) :
    belowSlash (kept.map f) = (belowSlash kept).map f := by
  cases kept with
  | nil => rfl
  | cons first kept =>
      unfold belowSlash
      simp only [List.map_cons, List.head?_cons, Option.some.injEq, h.empty, List.tail_cons]
      split <;> rfl

private theorem closing_map (h : KeepsDots f) (segments : List Text) :
    closing (segments.map f) = (closing segments).map f := by
  have hnil : f [] = [] := (h.empty []).mpr rfl
  unfold closing
  rw [List.getLast?_map]
  cases segments.getLast? with
  | none => rfl
  | some last =>
      have hdots : isDots (f last) = isDots last := by simp [isDots, h.one, h.two]
      rw [Option.map_some, Option.any_some, Option.any_some, hdots]
      cases isDots last with
      | true => simp [hnil]
      | false => rfl

/-- Carrying out dot segments does not depend on what the other segments are. -/
theorem settled_map (h : KeepsDots f) (segments : List Text) :
    settled (segments.map f) = (settled segments).map f := by
  have hnil : f [] = [] := (h.empty []).mpr rfl
  have hsettle : settle ([] :: segments.map f) = (settle ([] :: segments)).map f := by
    have hstart := foldl_follow_map h segments [[]]
    rw [List.map_singleton, hnil] at hstart
    exact hstart
  unfold settled
  dsimp only
  rw [hsettle, belowSlash_map h, closing_map h, ← List.map_append]
  simp only [List.map_eq_nil_iff]
  split
  · rw [List.map_singleton, hnil]
  · rfl

end Map

/-- The pieces of a path between its slashes, those at its ends left aside. -/
def pieces (path : Text) : List Text :=
  if dropOuterSlashes path = [] then [] else Text.splitOn '/' (dropOuterSlashes path)

theorem joinWith_pieces (path : Text) : Text.joinWith "/" (pieces path) = dropOuterSlashes path := by
  unfold pieces
  split
  · next hempty =>
    rw [hempty]
    rfl
  · exact Text.joinWith_splitOn _

theorem slash_not_mem_pieces {path piece : Text} (h : piece ∈ pieces path) :
    .char '/' ∉ piece := by
  unfold pieces at h
  split at h
  · cases h
  · exact Text.not_mem_of_mem_splitOn h

private theorem splitOn_dropLeadingSlashes {path piece : Text}
    (h : piece ∈ Text.splitOn '/' (dropLeadingSlashes path)) : piece ∈ Text.splitOn '/' path := by
  induction path with
  | nil => exact h
  | cons c path ih =>
      unfold dropLeadingSlashes at h ih
      rw [List.dropWhile_cons] at h
      split at h
      · next hslash =>
        obtain rfl : c = .char '/' := by simpa [isSlash] using hslash
        exact List.mem_cons_of_mem [] (ih h)
      · exact h

/-- Only slashes are dropped at the end of a path. -/
theorem exists_dropTrailingSlashes_append (path : Text) : ∃ slashes : Text,
    path = dropTrailingSlashes path ++ slashes ∧ ∀ c ∈ slashes, c = .char '/' := by
  refine ⟨(path.reverse.takeWhile isSlash).reverse, ?_, fun c hc => ?_⟩
  · unfold dropTrailingSlashes Text.dropEndWhile
    rw [← List.reverse_append, List.takeWhile_append_dropWhile, List.reverse_reverse]
  · have hslash := List.mem_takeWhile_imp (List.mem_reverse.mp hc)
    simpa [isSlash] using hslash

private theorem splitOn_dropTrailingSlashes {path piece : Text}
    (h : piece ∈ Text.splitOn '/' (dropTrailingSlashes path)) : piece ∈ Text.splitOn '/' path := by
  obtain ⟨slashes, hsplit, hslashes⟩ := exists_dropTrailingSlashes_append path
  cases slashes with
  | nil =>
      rw [List.append_nil] at hsplit
      rwa [hsplit]
  | cons c tail =>
      obtain rfl := hslashes c List.mem_cons_self
      rw [hsplit, Text.splitOn_append_cons]
      exact List.mem_append_left _ h

/-- The pieces of a path are its segments and the empty ones between them. -/
theorem mem_pieces {path piece : Text} (h : piece ∈ pieces path) :
    piece = [] ∨ piece ∈ segments path := by
  unfold pieces at h
  split at h
  · cases h
  · have hsplit := splitOn_dropLeadingSlashes (splitOn_dropTrailingSlashes h)
    by_cases hempty : piece = []
    · exact .inl hempty
    · exact .inr (List.mem_filter.mpr ⟨hsplit, by simpa using hempty⟩)

theorem segments_spec {path segment : Text} (h : segment ∈ segments path) :
    segment ≠ [] ∧ .char '/' ∉ segment := by
  unfold segments at h
  obtain ⟨hmem, hne⟩ := List.mem_filter.mp h
  refine ⟨fun hempty => ?_, Text.not_mem_of_mem_splitOn hmem⟩
  rw [hempty] at hne
  cases hne

theorem dropTrailingSlashes_append (t u : Text) :
    dropTrailingSlashes (t ++ u) =
      if dropTrailingSlashes u = [] then dropTrailingSlashes t else t ++ dropTrailingSlashes u := by
  unfold dropTrailingSlashes Text.dropEndWhile
  rw [List.reverse_append, List.dropWhile_append]
  by_cases hempty : u.reverse.dropWhile isSlash = []
  · simp [hempty]
  · simp [hempty]

theorem dropTrailingSlashes_of_not_mem {t : Text} (h : .char '/' ∉ t) :
    dropTrailingSlashes t = t := by
  have hreverse : t.reverse.dropWhile isSlash = t.reverse := by
    cases hr : t.reverse with
    | nil => rfl
    | cons c r =>
        have hc : c ∈ t := by
          rw [← List.mem_reverse, hr]
          exact List.mem_cons_self
        apply List.dropWhile_cons_of_neg
        intro hslash
        apply h
        rwa [← beq_iff_eq.mp hslash]
  unfold dropTrailingSlashes Text.dropEndWhile
  rw [hreverse, List.reverse_reverse]

private theorem joinWith_segments (segment : Text) (segments : List Text) :
    ∃ rest, Text.joinWith "/" (segment :: segments) = segment ++ rest := by
  by_cases hempty : segments = []
  · exact ⟨[], by rw [hempty, Text.joinWith_singleton, List.append_nil]⟩
  · exact ⟨_, Text.joinWith_cons _ _ hempty⟩

theorem dropTrailingSlashes_joinWith {segments : List Text}
    (h : ∀ segment ∈ segments, segment ≠ [] ∧ .char '/' ∉ segment) :
    dropTrailingSlashes (Text.joinWith "/" segments) = Text.joinWith "/" segments := by
  induction segments with
  | nil => rfl
  | cons segment segments ih =>
      have hsegment := (h segment List.mem_cons_self).2
      have hrest := ih fun next hnext => h next (List.mem_cons_of_mem segment hnext)
      cases segments with
      | nil =>
          rw [Text.joinWith_singleton]
          exact dropTrailingSlashes_of_not_mem hsegment
      | cons next segments =>
          obtain ⟨more, hmore⟩ := joinWith_segments next segments
          have hnext : Text.joinWith "/" (next :: segments) ≠ [] := by
            rw [hmore]
            have hne := (h next (by simp)).1
            simp [hne]
          rw [Text.joinWith_cons _ _ (by simp), dropTrailingSlashes_append,
            dropTrailingSlashes_append, hrest, if_neg hnext, if_neg (by simp [hnext])]

theorem dropLeadingSlashes_joinWith {segments : List Text}
    (h : ∀ segment ∈ segments, segment ≠ [] ∧ .char '/' ∉ segment) :
    dropLeadingSlashes (Text.joinWith "/" segments) = Text.joinWith "/" segments := by
  cases segments with
  | nil => rfl
  | cons segment segments =>
      obtain ⟨rest, hrest⟩ := joinWith_segments segment segments
      obtain ⟨hne, hfree⟩ := h segment List.mem_cons_self
      rw [hrest]
      cases segment with
      | nil => exact absurd rfl hne
      | cons c segment =>
          apply List.dropWhile_cons_of_neg
          intro hslash
          apply hfree
          rw [beq_iff_eq.mp hslash]
          exact List.mem_cons_self

theorem dropOuterSlashes_joinWith {segments : List Text}
    (h : ∀ segment ∈ segments, segment ≠ [] ∧ .char '/' ∉ segment) :
    dropOuterSlashes (Text.joinWith "/" segments) = Text.joinWith "/" segments := by
  change dropTrailingSlashes (dropLeadingSlashes (Text.joinWith "/" segments)) = _
  rw [dropLeadingSlashes_joinWith h, dropTrailingSlashes_joinWith h]

/-- A normal root without its outer slashes are its segments, joined. -/
theorem dropOuterSlashes_normalizeRoot (root : Text) :
    dropOuterSlashes (normalizeRoot root) = Text.joinWith "/" (segments root) := by
  have hspec (segment : Text) (h : segment ∈ segments root) := segments_spec h
  have hleading : (normalizeRoot root).dropWhile isSlash = Text.joinWith "/" (segments root) := by
    unfold normalizeRoot
    rw [List.dropWhile_cons_of_pos (by rfl)]
    exact dropLeadingSlashes_joinWith hspec
  unfold dropOuterSlashes Text.trim
  rw [hleading]
  exact dropTrailingSlashes_joinWith hspec

/-- A slash ends one segment at most, so the segments around it are those of both sides. -/
theorem segments_append_cons (t u : Text) :
    segments (t ++ .char '/' :: u) = segments t ++ segments u := by
  have hsplit : Text.splitOn (.char '/') (t ++ .char '/' :: u) =
      Text.splitOn (.char '/') t ++ Text.splitOn (.char '/') u :=
    Text.splitOn_append_cons t u
  unfold segments
  rw [hsplit, List.filter_append]

theorem segments_cons_slash (path : Text) : segments (.char '/' :: path) = segments path :=
  segments_append_cons [] path

/-- The segments of a path that is made of names are these names. -/
theorem segments_joinWith {names : List Text}
    (h : ∀ name ∈ names, name ≠ [] ∧ .char '/' ∉ name) :
    segments (Text.joinWith "/" names) = names := by
  by_cases hnone : names = []
  · rw [hnone]
    rfl
  · have hsplit : Text.splitOn '/' (Text.joinWith "/" names) = names :=
      Text.splitOn_joinWith hnone fun name hname => (h name hname).2
    unfold segments
    rw [hsplit]
    apply List.filter_eq_self.mpr
    intro name hname
    simpa using (h name hname).1

theorem segments_normalizeRoot (root : Text) : segments (normalizeRoot root) = segments root := by
  unfold normalizeRoot
  rw [segments_cons_slash]
  exact segments_joinWith fun _ h => segments_spec h

theorem segments_dropLeadingSlashes (path : Text) :
    segments (dropLeadingSlashes path) = segments path := by
  induction path with
  | nil => rfl
  | cons c path ih =>
      unfold dropLeadingSlashes at ih ⊢
      rw [List.dropWhile_cons]
      split
      · next hslash =>
        obtain rfl : c = .char '/' := by simpa [isSlash] using hslash
        rw [ih, segments_cons_slash]
      · rfl

private theorem segments_append_slashes (path : Text) {slashes : Text}
    (h : ∀ c ∈ slashes, c = .char '/') : segments (path ++ slashes) = segments path := by
  induction slashes generalizing path with
  | nil => rw [List.append_nil]
  | cons c slashes ih =>
      obtain rfl := h c List.mem_cons_self
      have hslashes : segments slashes = [] :=
        ih [] fun c hc => h c (List.mem_cons_of_mem _ hc)
      rw [segments_append_cons, hslashes, List.append_nil]

theorem segments_dropTrailingSlashes (path : Text) :
    segments (dropTrailingSlashes path) = segments path := by
  obtain ⟨slashes, hsplit, hslashes⟩ := exists_dropTrailingSlashes_append path
  have hleft := segments_append_slashes (dropTrailingSlashes path) hslashes
  rw [← hsplit] at hleft
  exact hleft.symm

/-- Slashes at the end of a path make no difference to its parent. -/
theorem parent_eq (path : Text) : parent path = Text.joinWith "/" (segments path).dropLast := by
  rw [parent, segments_dropTrailingSlashes]

theorem segments_dropOuterSlashes (path : Text) :
    segments (dropOuterSlashes path) = segments path :=
  (segments_dropTrailingSlashes (dropLeadingSlashes path)).trans (segments_dropLeadingSlashes path)

/-- The segments of a path are its pieces that are not empty. -/
theorem segments_eq_filter (path : Text) : segments path = (pieces path).filter (!·.isEmpty) := by
  rw [← segments_dropOuterSlashes path]
  unfold pieces
  split
  · next hempty =>
    rw [hempty]
    rfl
  · rfl

/-- A path that is made of names, apart from the slashes at its ends, has these names as
its pieces. -/
theorem pieces_eq_of_names {path : Text} {names : List Text}
    (hnames : ∀ name ∈ names, name ≠ [] ∧ .char '/' ∉ name)
    (h : dropOuterSlashes path = Text.joinWith "/" names) : pieces path = names := by
  unfold pieces
  rw [h]
  cases names with
  | nil => rfl
  | cons name names =>
      obtain ⟨rest, hrest⟩ := joinWith_segments name names
      have hne : Text.joinWith "/" (name :: names) ≠ [] := by
        rw [hrest]
        simp [(hnames name List.mem_cons_self).1]
      rw [if_neg hne]
      exact Text.splitOn_joinWith (by simp) fun n hn => (hnames n hn).2

/-- The pieces of a normal root are its segments. -/
theorem pieces_normalizeRoot (root : Text) : pieces (normalizeRoot root) = segments root :=
  pieces_eq_of_names (fun _ h => segments_spec h) (dropOuterSlashes_normalizeRoot root)

theorem dropLeadingSlashes_idem (path : Text) :
    dropLeadingSlashes (dropLeadingSlashes path) = dropLeadingSlashes path :=
  List.dropWhile_idempotent _ _

theorem dropTrailingSlashes_idem (path : Text) :
    dropTrailingSlashes (dropTrailingSlashes path) = dropTrailingSlashes path := by
  unfold dropTrailingSlashes Text.dropEndWhile
  rw [List.reverse_reverse, List.dropWhile_idempotent]

/-- A path without slashes at its end does not end in one. -/
theorem getLast?_dropTrailingSlashes (path : Text) :
    (dropTrailingSlashes path).getLast? ≠ some (.char '/') := by
  unfold dropTrailingSlashes Text.dropEndWhile
  rw [List.getLast?_reverse]
  intro hlast
  have hfirst := List.head?_dropWhile_not isSlash path.reverse
  rw [hlast] at hfirst
  exact absurd hfirst (by decide)

/-- Nothing is left exactly of a path that is nothing but slashes. -/
theorem dropTrailingSlashes_eq_nil_iff {path : Text} :
    dropTrailingSlashes path = [] ↔ ∀ c ∈ path, c = .char '/' := by
  obtain ⟨slashes, hsplit, hslashes⟩ := exists_dropTrailingSlashes_append path
  constructor
  · intro hnone
    rw [hnone, List.nil_append] at hsplit
    rw [hsplit]
    exact hslashes
  · intro hall
    have hlast := getLast?_dropTrailingSlashes path
    cases hleft : (dropTrailingSlashes path).getLast? with
    | none => exact List.getLast?_eq_none_iff.mp hleft
    | some c =>
        have hc : c ∈ path := by
          rw [hsplit]
          exact List.mem_append_left _ (List.mem_of_getLast? hleft)
        rw [hleft, hall c hc] at hlast
        exact absurd rfl hlast

theorem dropLeadingSlashes_append {t : Text} (hne : t ≠ []) (h : dropLeadingSlashes t = t)
    (u : Text) : dropLeadingSlashes (t ++ u) = t ++ u := by
  unfold dropLeadingSlashes at h ⊢
  rw [List.dropWhile_append, h]
  simp [hne]

theorem dropTrailingSlashes_dropOuterSlashes (path : Text) :
    dropTrailingSlashes (dropOuterSlashes path) = dropOuterSlashes path :=
  dropTrailingSlashes_idem (dropLeadingSlashes path)

theorem dropLeadingSlashes_dropOuterSlashes (path : Text) :
    dropLeadingSlashes (dropOuterSlashes path) = dropOuterSlashes path := by
  obtain ⟨slashes, hsplit, _⟩ := exists_dropTrailingSlashes_append (dropLeadingSlashes path)
  have hkept := dropLeadingSlashes_idem path
  rw [hsplit] at hkept
  change dropLeadingSlashes (dropOuterSlashes path ++ slashes) =
    dropOuterSlashes path ++ slashes at hkept
  unfold dropLeadingSlashes at hkept ⊢
  rw [List.dropWhile_append] at hkept
  split at hkept
  · next hall =>
    -- Nothing but slashes is left, but then they would have been dropped as well.
    have hlength := congrArg List.length hkept
    have hle := (List.dropWhile_sublist isSlash (l := slashes)).length_le
    rw [List.length_append] at hlength
    have hnone : dropOuterSlashes path = [] := List.length_eq_zero_iff.mp (by omega)
    rw [hnone]
    rfl
  · exact List.append_cancel_right hkept

/-- A path that begins with another character has something left between its slashes. -/
private theorem dropOuterSlashes_ne_nil {path : Text} (h : dropLeadingSlashes path ≠ []) :
    dropOuterSlashes path ≠ [] := by
  intro hnone
  have hall : ∀ c ∈ (path.dropWhile isSlash).reverse, isSlash c = true :=
    List.dropWhile_eq_nil_iff.mp (List.reverse_eq_nil_iff.mp hnone)
  have hfirst := List.head?_dropWhile_not isSlash path
  cases hc : (path.dropWhile isSlash).head? with
  | none => exact h (List.head?_eq_none_iff.mp hc)
  | some c =>
      rw [hc] at hfirst
      have hslash := hall c (List.mem_reverse.mpr (List.mem_of_head? hc))
      exact absurd (hslash.symm.trans hfirst) (by decide)

theorem pieces_eq_nil_iff {path : Text} : pieces path = [] ↔ dropOuterSlashes path = [] := by
  unfold pieces
  split
  · next hempty => exact ⟨fun _ => hempty, fun _ => rfl⟩
  · next hmore => exact ⟨fun h => absurd h (Text.splitOn_ne_nil _ _), fun h => absurd h hmore⟩

/-- The remote name of a path, without slashes at its end: the pieces of the root and
those of the path, joined. -/
theorem dropTrailingSlashes_absolute (root path : Text) :
    dropTrailingSlashes (absolute root path) =
      Text.joinWith "/" (pieces root ++ pieces path) := by
  have hpath : dropTrailingSlashes (dropLeadingSlashes path) = dropOuterSlashes path := rfl
  unfold absolute
  dsimp only
  split
  · next hempty =>
    rw [pieces_eq_nil_iff.mpr (List.isEmpty_iff.mp hempty), List.nil_append, joinWith_pieces, hpath]
  · next hbase =>
    have hne : pieces root ≠ [] := fun hnone =>
      hbase (List.isEmpty_iff.mpr (pieces_eq_nil_iff.mp hnone))
    split
    · next hempty =>
      have hpieces : pieces path = [] := by
        rw [pieces_eq_nil_iff, ← hpath, List.isEmpty_iff.mp hempty]
        rfl
      rw [hpieces, List.append_nil, dropTrailingSlashes_append, joinWith_pieces]
      exact dropTrailingSlashes_dropOuterSlashes root
    · next hmore =>
      have hleft := dropOuterSlashes_ne_nil fun hnone => hmore (List.isEmpty_iff.mpr hnone)
      have hslashed : dropTrailingSlashes (.char '/' :: dropLeadingSlashes path) =
          .char '/' :: dropOuterSlashes path := by
        have hcons := dropTrailingSlashes_append "/" (dropLeadingSlashes path)
        rw [hpath, if_neg hleft] at hcons
        exact hcons
      rw [dropTrailingSlashes_append, hslashed, if_neg (by simp),
        Text.joinWith_append _ hne (pieces_eq_nil_iff.not.mpr hleft), joinWith_pieces,
        joinWith_pieces]
      rfl

/-- A remote name has no slash at its front. -/
theorem dropLeadingSlashes_absolute (root path : Text) :
    dropLeadingSlashes (absolute root path) = absolute root path := by
  have hbase := dropLeadingSlashes_dropOuterSlashes root
  unfold absolute
  dsimp only
  split
  · exact dropLeadingSlashes_idem path
  · next hmore =>
    have hne : dropOuterSlashes root ≠ [] := fun hnone => hmore (List.isEmpty_iff.mpr hnone)
    split
    · exact dropLeadingSlashes_append hne hbase _
    · exact dropLeadingSlashes_append hne hbase _

/-- A path that stays below where it starts: none of its beginnings has more
segments of two dots than segments that name something. -/
def Stays (pieces : List Text) : Prop :=
  ∀ n, (pieces.take n).count (".." : Text) ≤ (pieces.take n).countP fun piece => !isDots piece

private theorem foldl_follow_of_stays (base more : List Text) {pieces : List Text}
    (h : ∀ n, (pieces.take n).count (".." : Text) ≤
      more.length + (pieces.take n).countP fun piece => !isDots piece) :
    ∃ more', pieces.foldl follow (base ++ more) = base ++ more' := by
  induction pieces generalizing more with
  | nil => exact ⟨more, rfl⟩
  | cons piece pieces ih =>
      rw [List.foldl_cons]
      by_cases hone : piece = "."
      · have hfollow : follow (base ++ more) piece = base ++ more := if_pos hone
        rw [hfollow]
        apply ih
        intro n
        have hn := h (n + 1)
        rw [List.take_succ_cons, hone, List.count_cons_of_ne (by decide),
          List.countP_cons_of_neg (by decide)] at hn
        exact hn
      · by_cases htwo : piece = ".."
        · have hmore : more ≠ [] := by
            intro hnone
            have hfirst := h 1
            rw [hnone, htwo, List.take_succ_cons, List.take_zero] at hfirst
            exact absurd hfirst (by decide)
          have hfollow : follow (base ++ more) piece = base ++ more.dropLast := by
            unfold follow
            rw [if_neg hone, if_pos htwo, List.dropLast_append_of_ne_nil hmore]
          rw [hfollow]
          apply ih
          intro n
          have hn := h (n + 1)
          rw [List.take_succ_cons, htwo, List.count_cons_self,
            List.countP_cons_of_neg (by decide)] at hn
          rw [List.length_dropLast]
          omega
        · have hfollow : follow (base ++ more) piece = base ++ (more ++ [piece]) := by
            unfold follow
            rw [if_neg hone, if_neg htwo, List.append_assoc]
          rw [hfollow]
          apply ih
          intro n
          have hn := h (n + 1)
          rw [List.take_succ_cons, List.count_cons_of_ne htwo,
            List.countP_cons_of_pos (by simp [isDots, hone, htwo])] at hn
          rw [List.length_append, List.length_singleton]
          omega

private theorem foldl_follow_of_names {base : List Text} (h : ∀ name ∈ base, isDots name = false)
    (kept : List Text) : base.foldl follow kept = kept ++ base := by
  induction base generalizing kept with
  | nil => rw [List.foldl_nil, List.append_nil]
  | cons name base ih =>
      have hname := h name List.mem_cons_self
      simp only [isDots, Bool.or_eq_false_iff, decide_eq_false_iff_not] at hname
      have hfollow : follow kept name = kept ++ [name] := by
        unfold follow
        rw [if_neg hname.1, if_neg hname.2]
      rw [List.foldl_cons, hfollow, ih fun next hnext => h next (List.mem_cons_of_mem name hnext),
        List.append_assoc, List.singleton_append]

/-- Segments that all name something are settled already. -/
theorem settled_of_names {segments : List Text} (hne : segments ≠ [])
    (h : ∀ name ∈ segments, isDots name = false) : settled segments = segments := by
  have hsettle : settle ([] :: segments) = [] :: segments :=
    foldl_follow_of_names h [[]]
  have hclosing : closing segments = [] := by
    have hlast := h _ (List.getLast_mem hne)
    unfold closing
    rw [List.getLast?_eq_some_getLast hne, Option.any_some, hlast]
    rfl
  unfold settled
  rw [hsettle, hclosing, List.append_nil]
  exact if_neg hne

/-- A path that stays below names that are given is settled below them. -/
theorem begins_settled_of_stays {base pieces : List Text} (hbase : base ≠ [])
    (hnames : ∀ name ∈ base, isDots name = false) (hstays : Stays pieces) :
    base <+: settled (base ++ pieces) := by
  obtain ⟨more, hmore⟩ := foldl_follow_of_stays ([] :: base) []
    (fun n => Nat.le_add_left_of_le (hstays n))
  have hsettle : settle ([] :: (base ++ pieces)) = [] :: (base ++ more) := by
    have hstart : settle ([] :: (base ++ pieces)) = (base ++ pieces).foldl follow [[]] := rfl
    rw [hstart, List.foldl_append, foldl_follow_of_names hnames]
    rw [List.append_nil] at hmore
    exact hmore
  have hbelow : belowSlash ([] :: (base ++ more)) = base ++ more := rfl
  unfold settled
  rw [hsettle, hbelow]
  dsimp only
  rw [if_neg (by simp [hbase]), List.append_assoc]
  exact List.prefix_append _ _

end Path

namespace Url

theorem resolveDots_eq_settle (segments : List Text) :
    (resolveDots [] segments).reverse = Path.settle segments := by
  have hfrom (kept : List Text) :
      (resolveDots kept segments).reverse = segments.foldl Path.follow kept.reverse := by
    induction segments generalizing kept with
    | nil => rfl
    | cons segment segments ih =>
        unfold resolveDots
        rw [List.foldl_cons]
        by_cases hone : segment = "."
        · have hfollow : Path.follow kept.reverse segment = kept.reverse := if_pos hone
          rw [if_pos hone, hfollow, ih]
        · by_cases htwo : segment = ".."
          · have hfollow : Path.follow kept.reverse segment = kept.reverse.dropLast := by
              unfold Path.follow
              rw [if_neg hone, if_pos htwo]
            rw [if_neg hone, if_pos htwo, hfollow, ih, List.dropLast_reverse]
          · have hfollow : Path.follow kept.reverse segment = kept.reverse ++ [segment] := by
              unfold Path.follow
              rw [if_neg hone, if_neg htwo]
            rw [if_neg hone, if_neg htwo, hfollow, ih, List.reverse_cons]
  exact hfrom []

/-- A path ends in a slash and dots exactly if its last segment is one of dots. -/
private theorem endsWith_dots {segments : List Text} (hne : segments ≠ [])
    (hfree : ∀ segment ∈ segments, .char '/' ∉ segment) :
    (Text.endsWith (Text.joinWith "/" ([] :: segments)) "/." ||
      Text.endsWith (Text.joinWith "/" ([] :: segments)) "/..") =
        segments.getLast?.any Path.isDots := by
  have hone : Text.endsWith (Text.joinWith "/" ([] :: segments)) "/." = true ↔
      segments.getLast? = some "." :=
    Text.endsWith_piece_iff hne hfree (by decide) []
  have htwo : Text.endsWith (Text.joinWith "/" ([] :: segments)) "/.." = true ↔
      segments.getLast? = some ".." :=
    Text.endsWith_piece_iff hne hfree (by decide) []
  rw [Bool.eq_iff_iff, Bool.or_eq_true, hone, htwo]
  cases segments.getLast? with
  | none => simp
  | some last => simp [Path.isDots]

/-- Removing the dot segments of a path that begins with a slash settles its
segments. -/
theorem removeDots_eq {segments : List Text} (hne : segments ≠ [])
    (hfree : ∀ segment ∈ segments, .char '/' ∉ segment) :
    let path := removeDots (.char '/' :: Text.joinWith "/" segments)
    (if path.head? = some (.char '/') then path else .char '/' :: path) =
      .char '/' :: Text.joinWith "/" (Path.settled segments) := by
  have hjoin {below : List Text} (hbelow : below ≠ []) :
      Text.joinWith "/" ([] :: below) = .char '/' :: Text.joinWith "/" below :=
    Text.joinWith_cons _ _ hbelow
  have hsplit : Text.splitOn (.char '/') (.char '/' :: Text.joinWith "/" segments) =
      [] :: segments := by
    rw [← hjoin hne]
    apply Text.splitOn_joinWith (by simp)
    intro piece hpiece
    rcases List.mem_cons.mp hpiece with rfl | hpiece
    · exact List.not_mem_nil
    · exact hfree piece hpiece
  have hends := endsWith_dots hne hfree
  rw [hjoin hne] at hends
  intro path
  obtain ⟨kept, hkept⟩ : ∃ kept, Path.settle ([] :: segments) = kept := ⟨_, rfl⟩
  have hpath : path = Text.joinWith "/" ([] :: (Path.belowSlash kept ++ Path.closing segments)) := by
    have hleading : (if (.char '/' :: Text.joinWith "/" segments).head? = some (.char '/') &&
          !(kept.head?.any List.isEmpty) then [] :: kept else kept) =
        [] :: Path.belowSlash kept := by
      unfold Path.belowSlash
      cases kept with
      | nil => rfl
      | cons first kept => cases first <;> simp
    change Url.removeDots (.char '/' :: Text.joinWith "/" segments) = _
    unfold Url.removeDots Path.closing
    dsimp only
    rw [hsplit, resolveDots_eq_settle, hkept, hends, hleading]
    split
    · rfl
    · rw [List.append_nil]
  unfold Path.settled
  dsimp only
  rw [hkept]
  generalize Path.belowSlash kept ++ Path.closing segments = below at hpath ⊢
  rw [hpath]
  by_cases hbelow : below = []
  · rw [hbelow]
    rfl
  · rw [hjoin hbelow, if_neg hbelow]
    rfl

end Url

end DataLake
