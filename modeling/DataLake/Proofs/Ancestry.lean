import DataLake.Metadata
import DataLake.Proofs.SentUrl

/-!
Parents and names. A path with a segment has a name, which is its last segment, and a parent,
which has all the others. The name is found by looking for the last slash, the parent by
collecting the segments, and the two fit together however many slashes the path is spelled with.
Going from parent to parent uses up the segments one by one.
-/

namespace DataLake

/-- What stands after the last separator is the last piece. -/
theorem Text.getLast?_splitOn {sep : CodePoint} (t : Text) :
    (splitOn sep t).getLast? = some (cutLast sep t).2 := by
  by_cases hsep : sep ∈ t
  · -- The last separator is the first one from behind.
    obtain ⟨after, before, hreverse, hafter⟩ :=
      List.eq_append_cons_of_mem (List.mem_reverse.mpr hsep)
    have ht : t = before.reverse ++ sep :: after.reverse := by
      rw [← List.reverse_reverse t, hreverse]
      simp
    have hcut : (cutLast sep t).2 = after.reverse := by
      unfold cutLast
      rw [hreverse, cutFirst_append_cons hafter]
    have hlast : splitOn sep after.reverse = [after.reverse] :=
      splitOn_of_not_mem (by simpa using hafter)
    rw [hcut, ht, splitOn_append_cons, hlast, List.getLast?_concat]
  · rw [splitOn_of_not_mem hsep, cutLast_of_not_mem hsep]
    rfl

namespace Path

/-- The name of a path is the last of its segments. -/
theorem getLast?_segments {path : Text} (h : segments path ≠ []) :
    (segments path).getLast? = some (lastName path) := by
  rw [← segments_dropTrailingSlashes] at h ⊢
  have hlast : (Text.splitOn '/' (dropTrailingSlashes path)).getLast? = some (lastName path) :=
    Text.getLast?_splitOn _
  obtain ⟨before, hsplit⟩ := List.getLast?_eq_some_iff.mp hlast
  have hjoined : Text.joinWith "/" (Text.splitOn '/' (dropTrailingSlashes path)) =
      dropTrailingSlashes path := Text.joinWith_splitOn _
  have hname : lastName path ≠ [] := by
    intro hnone
    rw [hsplit, hnone] at hjoined
    by_cases hbefore : before = []
    · apply h
      rw [← hjoined, hbefore]
      rfl
    · -- An empty last piece stands after a slash, and there is none at the end.
      apply getLast?_dropTrailingSlashes path
      rw [← hjoined, Text.joinWith_append _ hbefore (List.cons_ne_nil _ _), Text.joinWith_singleton]
      exact List.getLast?_concat
  unfold segments
  rw [hsplit, List.filter_append, List.filter_cons_of_pos (by simpa using hname)]
  exact List.getLast?_concat

theorem segments_parent (path : Text) : segments (parent path) = (segments path).dropLast := by
  rw [parent_eq]
  exact segments_joinWith fun _ h => segments_spec (List.dropLast_subset _ h)

theorem parent_eq_nil_iff (path : Text) : parent path = [] ↔ segments (parent path) = [] := by
  constructor
  · intro h
    rw [h]
    rfl
  · intro h
    rw [segments_parent] at h
    rw [parent_eq, h]
    rfl

/-- Slashes in the parent of a path stand between two of its segments. -/
theorem splitOn_parent {path : Text} (h : parent path ≠ []) :
    Text.splitOn '/' (parent path) = (segments path).dropLast := by
  rw [Ne, parent_eq_nil_iff, segments_parent] at h
  rw [parent_eq]
  exact Text.splitOn_joinWith h fun _ hs => (segments_spec (List.dropLast_subset _ hs)).2

/-- Going up takes one segment away at a time. -/
theorem length_segments_iterate (path : Text) (n : Nat) :
    (segments (parent^[n] path)).length = (segments path).length - n := by
  induction n with
  | zero => rfl
  | succ n ih =>
      rw [Function.iterate_succ_apply', segments_parent, List.length_dropLast, ih, Nat.sub_sub]

/-- Going up from a path with a segment comes to an end when its segments are used up. -/
theorem iterate_parent_eq_nil_iff {path : Text} (h : segments path ≠ []) (n : Nat) :
    parent^[n] path = [] ↔ (segments path).length ≤ n := by
  cases n with
  | zero =>
      apply iff_of_false
      · intro hnone
        apply h
        rw [Function.iterate_zero_apply] at hnone
        rw [hnone]
        rfl
      · simpa using h
  | succ n =>
      have hlength := length_segments_iterate path (n + 1)
      rw [Function.iterate_succ_apply'] at hlength ⊢
      rw [parent_eq_nil_iff, ← List.length_eq_zero_iff, hlength]
      omega

end Path

/-- A path with a segment comes apart into its parent and its name: its segments are those of
the parent and then the name, which is one segment indeed, and the parent has no slashes but
those between two segments. The path that is empty is reached from parent to parent after as
many steps as there are segments, and no sooner. -/
theorem Entry.parent_and_name (e : Entry) (h : Path.segments e.path ≠ []) :
    Path.segments e.path = Path.segments (Path.parent e.path) ++ [e.name] ∧
    (e.name ≠ [] ∧ .char '/' ∉ e.name) ∧
    (Path.parent e.path = [] ∨ [] ∉ Text.splitOn '/' (Path.parent e.path)) ∧
    ∀ n, Path.parent^[n] e.path = [] ↔ (Path.segments e.path).length ≤ n := by
  have hname : (Path.segments e.path).getLast? = some e.name := Path.getLast?_segments h
  refine ⟨?_, Path.segments_spec (List.mem_of_getLast? hname), ?_,
    Path.iterate_parent_eq_nil_iff h⟩
  · rw [Path.segments_parent]
    exact (List.dropLast_append_getLast? _ hname).symm
  · refine or_iff_not_imp_left.mpr fun hparent hempty => ?_
    rw [Path.splitOn_parent hparent] at hempty
    exact (Path.segments_spec (List.dropLast_subset _ hempty)).1 rfl

/-- A file whose path is spelled with slashes at both ends and next to each other. -/
def slashedEntry : Entry :=
  ⟨"//dir///old/log.txt//", { mode := .file }⟩

theorem Entry.parent_and_name_slashed :
    Path.segments slashedEntry.path = [Text.ofString "dir", Text.ofString "old"] ++
        [slashedEntry.name] ∧
      slashedEntry.name = "log.txt" ∧ Path.parent slashedEntry.path = "dir/old" ∧
      Path.parent^[2] slashedEntry.path ≠ [] ∧ Path.parent^[3] slashedEntry.path = [] := by
  have hsome : Path.segments slashedEntry.path ≠ [] := by decide
  have hparent : Path.segments (Path.parent slashedEntry.path) =
      [Text.ofString "dir", Text.ofString "old"] := by decide
  obtain ⟨hsegments, -, -, hsteps⟩ := slashedEntry.parent_and_name hsome
  rw [hparent] at hsegments
  have hlength : (Path.segments slashedEntry.path).length = 3 := by
    rw [hsegments]
    rfl
  rw [hlength] at hsteps
  exact ⟨hsegments, by decide, by decide, (hsteps 2).not.mpr (by decide), (hsteps 3).mpr le_rfl⟩

end DataLake
