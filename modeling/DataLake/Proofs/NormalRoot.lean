import DataLake.Proofs.Segments

/-!
Normal roots. A root is configured in any spelling and kept in one: its segments, each after
one slash. The normal spelling says neither more nor less than the segments, so two roots are
kept alike exactly if they have the same ones, and remote names are made of the segments of the
root and those of the path, however both are spelled.
-/

namespace DataLake

/-- Only a separator at an end of a text or next to another one leaves a piece empty. -/
theorem Text.nil_mem_splitOn {sep : CodePoint} {t : Text} (h : [] ∈ splitOn sep t) :
    t = [] ∨ t.head? = some sep ∨ t.getLast? = some sep ∨ [sep, sep] <:+: t := by
  obtain ⟨before, after, hsplit⟩ := List.append_of_mem h
  have hjoined : joinWith [sep] (splitOn sep t) = t := joinWith_splitOn t
  rw [hsplit] at hjoined
  by_cases hbefore : before = []
  · by_cases hafter : after = []
    · left
      rw [← hjoined, hbefore, hafter]
      rfl
    · right; left
      rw [← hjoined, hbefore, List.nil_append, joinWith_cons _ _ hafter]
      rfl
  · right; right
    rw [joinWith_append _ hbefore (List.cons_ne_nil _ _)] at hjoined
    by_cases hafter : after = []
    · left
      rw [← hjoined, hafter, joinWith_singleton, List.append_nil, List.getLast?_concat]
    · right
      rw [joinWith_cons _ _ hafter] at hjoined
      exact ⟨joinWith [sep] before, joinWith [sep] after, by rw [← hjoined]; simp⟩

namespace Path

/-- The path has its slashes as a root has them: one at its front, no two next to each other,
and none at its end unless it is nothing else. -/
structure IsNormal (path : Text) : Prop where
  front : path.head? = some (.char '/')
  single : ¬ ("//" : Text) <:+: path
  back : path = "/" ∨ path.getLast? ≠ some (.char '/')

/-- What stands after a slash of a normal root begins with a segment. -/
private theorem nil_not_mem_after {root : Text} (hne : segments root ≠ []) (before after : Text)
    (h : normalizeRoot root = before ++ .char '/' :: after) :
    [] ∉ Text.splitOn '/' after := by
  have hsplit : Text.splitOn (.char '/') (normalizeRoot root) = [] :: segments root :=
    congrArg (List.cons []) (Text.splitOn_joinWith hne fun _ hs => (segments_spec hs).2)
  rw [h, Text.splitOn_append_cons] at hsplit
  intro hmem
  have htail : ([] : Text) ∈ segments root := by
    cases hbefore : Text.splitOn (.char '/') before with
    | nil => exact absurd hbefore (Text.splitOn_ne_nil _ _)
    | cons piece pieces =>
        rw [hbefore, List.cons_append, List.cons.injEq] at hsplit
        rw [← hsplit.2]
        exact List.mem_append_right _ hmem
  exact (segments_spec htail).1 rfl

theorem isNormal_normalizeRoot (root : Text) : IsNormal (normalizeRoot root) := by
  by_cases hnone : segments root = []
  · have hroot : normalizeRoot root = "/" := by
      unfold normalizeRoot
      rw [hnone]
      rfl
    rw [hroot]
    exact ⟨rfl, by decide, .inl rfl⟩
  · refine ⟨rfl, ?_, .inr ?_⟩
    · rintro ⟨before, after, h⟩
      apply nil_not_mem_after hnone before (.char '/' :: after)
      · rw [← h]
        simp [Text.ofString, Text.ofChars]
      · simp [Text.splitOn]
    · intro hlast
      obtain ⟨before, h⟩ := List.getLast?_eq_some_iff.mp hlast
      apply nil_not_mem_after hnone before []
      · rw [h]
      · simp [Text.splitOn]

/-- A normal root is spelled as its segments ask for. -/
theorem IsNormal.normalizeRoot_eq {path : Text} (h : IsNormal path) : normalizeRoot path = path := by
  obtain ⟨rest, rfl⟩ : ∃ rest, path = .char '/' :: rest := List.head?_eq_some_iff.mp h.front
  by_cases hempty : rest = []
  · rw [hempty]
    rfl
  · have hnames : ∀ name ∈ Text.splitOn '/' rest, name ≠ [] ∧ .char '/' ∉ name := by
      refine fun name hname => ⟨?_, Text.not_mem_of_mem_splitOn hname⟩
      rintro rfl
      rcases Text.nil_mem_splitOn hname with hnone | hfirst | hlast | hdouble
      · exact hempty hnone
      · obtain ⟨more, rfl⟩ := List.head?_eq_some_iff.mp hfirst
        exact h.single ⟨[], more, rfl⟩
      · rcases h.back with hroot | hback
        · exact hempty (List.cons.inj hroot).2
        · exact hback (by rw [List.getLast?_cons, hlast]; rfl)
      · exact h.single (hdouble.trans (List.suffix_cons _ _).isInfix)
    have hjoined : Text.joinWith "/" (Text.splitOn '/' rest) = rest := Text.joinWith_splitOn rest
    have hsegments : segments (.char '/' :: rest) = Text.splitOn '/' rest := by
      rw [segments_cons_slash, ← segments_joinWith hnames, hjoined]
    unfold normalizeRoot
    rw [hsegments, hjoined]

theorem normalizeRoot_eq_iff (root other : Text) :
    normalizeRoot root = normalizeRoot other ↔ segments root = segments other := by
  constructor
  · intro h
    have hsegments := congrArg segments h
    rwa [segments_normalizeRoot, segments_normalizeRoot] at hsegments
  · intro h
    unfold normalizeRoot
    rw [h]

/-- A remote name has the segments of the root and then those of the path. -/
theorem segments_absolute (root path : Text) :
    segments (absolute root path) = segments root ++ segments path := by
  rw [← segments_dropOuterSlashes root, ← segments_dropLeadingSlashes path]
  unfold absolute
  dsimp only
  split
  · next hbase =>
    rw [List.isEmpty_iff.mp hbase]
    rfl
  · split
    · next hpath =>
      rw [List.isEmpty_iff.mp hpath]
      exact segments_append_cons _ []
    · exact segments_append_cons _ _

/-- The normal spelling of a root is canonical. It is normal and has the segments of the root in
their order, and it is the only normal path that has them; so it is its own normal spelling, and
roots have the same one exactly if they have the same segments. Below it, the remote name of any
path has the segments of the root and then those of the path. -/
theorem normalizeRoot_canonical (root : Text) :
    IsNormal (normalizeRoot root) ∧
    segments (normalizeRoot root) = segments root ∧
    (∀ path, IsNormal path → segments path = segments root → path = normalizeRoot root) ∧
    normalizeRoot (normalizeRoot root) = normalizeRoot root ∧
    (∀ other, normalizeRoot root = normalizeRoot other ↔ segments root = segments other) ∧
    ∀ path, segments (absolute (normalizeRoot root) path) = segments root ++ segments path := by
  have hnormal := isNormal_normalizeRoot root
  refine ⟨hnormal, segments_normalizeRoot root, fun path hpath hsame => ?_,
    hnormal.normalizeRoot_eq, normalizeRoot_eq_iff root, fun path => ?_⟩
  · rw [← hpath.normalizeRoot_eq]
    exact (normalizeRoot_eq_iff path root).mpr hsame
  · rw [segments_absolute, segments_normalizeRoot]

end Path

end DataLake
