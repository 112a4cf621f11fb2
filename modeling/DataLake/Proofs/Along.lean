/-!
Rules along a list. What holds of a run is often a rule for each of its steps
that may look at all the steps before it. Such a rule is shown by going along the
run once, and says something about every place where the run can be split.
-/

namespace DataLake

/-- A rule for every item of a list that comes after some others. The rule sees
all items before the one it is about. -/
def Along {α : Type} (rule : List α → α → Prop) : List α → List α → Prop
  | _, [] => True
  | past, x :: xs => rule past x ∧ Along rule (past ++ [x]) xs

variable {α : Type} {rule : List α → α → Prop} {past xs ys : List α}

theorem along_append :
    Along rule past (xs ++ ys) ↔ Along rule past xs ∧ Along rule (past ++ xs) ys := by
  induction xs generalizing past with
  | nil => simp [Along]
  | cons x xs ih =>
      rw [List.cons_append, List.append_cons past x xs]
      simp only [Along]
      rw [ih, and_assoc]

/-- The rule holds along a list when it holds wherever the list is split. -/
theorem along_iff :
    Along rule past xs ↔ ∀ ys x zs, xs = ys ++ x :: zs → rule (past ++ ys) x := by
  constructor
  · rintro h ys x zs rfl
    exact (along_append.mp h).2.1
  · intro h
    induction xs generalizing past with
    | nil => trivial
    | cons x xs ih =>
        have hfirst := h [] x xs rfl
        rw [List.append_nil] at hfirst
        refine ⟨hfirst, ih fun ys y zs hsplit => ?_⟩
        rw [← List.append_cons]
        exact h (x :: ys) y zs (by rw [hsplit, List.cons_append])

/-- A rule that holds along the parts of every item holds along all parts. -/
theorem along_flatMap {β : Type} {rule : List β → β → Prop} {parts : α → List β}
    (h : Along (fun past x => Along rule (past.flatMap parts) (parts x)) past xs) :
    Along rule (past.flatMap parts) (xs.flatMap parts) := by
  induction xs generalizing past with
  | nil => trivial
  | cons x xs ih =>
      have hrest := ih h.2
      rw [List.flatMap_append, List.flatMap_singleton] at hrest
      rw [List.flatMap_cons]
      exact along_append.mpr ⟨h.1, hrest⟩

/-- What a rule carries over to each next item holds after all of them. -/
theorem Along.carries {keeps : List α → Prop}
    (hstep : ∀ past x, rule past x → keeps past → keeps (past ++ [x]))
    (h : Along rule past xs) (hpast : keeps past) : keeps (past ++ xs) := by
  induction xs generalizing past with
  | nil => simpa using hpast
  | cons x xs ih =>
      obtain ⟨hfirst, hrest⟩ := h
      rw [List.append_cons]
      exact ih hrest (hstep past x hfirst hpast)

end DataLake
