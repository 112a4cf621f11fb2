import DataLake.Fault

/-!
The context of a fault. Two rules change it: a text that is set replaces the one that was there
and takes over its place, and the operation that another one replaces is only added if none was
kept before. What is found under a key after either is one of the two texts, the new one first
or the old one first, and a key that is new comes after all others.
-/

namespace DataLake

namespace Context

def keys (c : Context) : List Text :=
  c.map Prod.fst

theorem get?_cons (e : Text × Text) (c : Context) (key : Text) :
    get? (e :: c) key = if e.1 = key then some e.2 else get? c key := by
  unfold get?
  rw [List.find?_cons]
  by_cases h : e.1 = key
  · simp [h]
  · have hother : (e.1 == key) = false := beq_eq_false_iff_ne.mpr h
    simp [h, hother]

theorem get?_append (c d : Context) (key : Text) :
    get? (c ++ d) key = (get? c key).or (get? d key) := by
  simp only [get?, List.find?_append, Option.map_or]

variable {c : Context} {key other value t : Text}

theorem mem_keys_iff : key ∈ c.keys ↔ (c.get? key).isSome = true := by
  simp [keys, get?]

/-- A text that is set is found under its key, and under the other keys nothing changes. -/
theorem get?_set :
    (c.set key value).get? other = if key = other then some value else c.get? other := by
  induction c with
  | nil => exact get?_cons (key, value) [] other
  | cons e c ih =>
      unfold set
      split
      · next hsame =>
        rw [get?_cons, get?_cons, hsame]
        split <;> rfl
      · next hkey =>
        rw [get?_cons, get?_cons, ih]
        by_cases hother : e.1 = other
        · have hne : key ≠ other := fun h => hkey (hother.trans h.symm)
          rw [if_pos hother, if_neg hne, if_pos hother]
        · rw [if_neg hother, if_neg hother]

/-- A text that is there keeps its value when another one is added. -/
theorem get?_setNew : (c.setNew key value).get? other =
    (c.get? other).or (if key = other then some value else none) := by
  unfold setNew
  split
  · next hthere =>
    by_cases hsame : key = other
    · obtain ⟨old, hold⟩ := Option.isSome_iff_exists.mp hthere
      rw [← hsame, hold, Option.some_or]
    · rw [if_neg hsame, Option.or_none]
  · rw [get?_append, get?_cons]
    rfl

theorem keys_set :
    (c.set key value).keys = if key ∈ c.keys then c.keys else c.keys ++ [key] := by
  induction c with
  | nil => rfl
  | cons e c ih =>
      unfold set
      by_cases hsame : e.1 = key
      · simp [keys, hsame]
      · have hne : key ≠ e.1 := fun h => hsame h.symm
        have hmem : key ∈ keys (e :: c) ↔ key ∈ keys c := by simp [keys, hne]
        rw [if_neg hsame]
        change e.1 :: keys (set c key value) = _
        simp only [hmem, ih]
        split <;> rfl

theorem keys_setNew :
    (c.setNew key value).keys = if key ∈ c.keys then c.keys else c.keys ++ [key] := by
  unfold setNew
  simp only [mem_keys_iff]
  split
  · rfl
  · exact List.map_append

/-- If no key occurs twice, the texts in a context are those that are found under their keys. -/
theorem mem_iff_get? (h : c.keys.Nodup) : (key, t) ∈ c ↔ c.get? key = some t := by
  induction c with
  | nil => simp [get?]
  | cons e c ih =>
      obtain ⟨hfirst, hrest⟩ := List.nodup_cons.mp h
      rw [List.mem_cons, ih hrest, get?_cons]
      split
      · next hsame =>
        subst hsame
        have hnone : get? c e.1 = none :=
          Option.not_isSome_iff_eq_none.mp fun hsome => hfirst (mem_keys_iff.mpr hsome)
        simp [hnone, Prod.ext_iff, eq_comm]
      · next hother =>
        have hne : (key, t) ≠ e := fun heq => hother (congrArg Prod.fst heq.symm)
        simp [hne]

end Context

namespace Fault

@[simp] theorem cause_withOperation (f : Fault) (name : Text) :
    (f.withOperation name).cause = f.cause := rfl

@[simp] theorem operation_withOperation (f : Fault) (name : Text) :
    (f.withOperation name).operation = some name := rfl

@[simp] theorem cause_withContext (f : Fault) (key : Text) (value : Option Text) :
    (f.withContext key value).cause = f.cause := by
  cases value <;> rfl

@[simp] theorem operation_withContext (f : Fault) (key : Text) (value : Option Text) :
    (f.withContext key value).operation = f.operation := by
  cases value <;> rfl

/-- The operation recorded before goes into the context if it is another one. -/
theorem context_withOperation (f : Fault) (name : Text) : (f.withOperation name).context =
    (f.operation.filter (· ≠ name)).elim f.context (f.context.setNew calledKey) := by
  unfold withOperation
  cases f.operation with
  | none => rfl
  | some inner =>
      rw [Option.filter_some]
      by_cases hsame : inner = name
      · simp [hsame]
      · simp [hsame]

theorem context_withContext (f : Fault) (key : Text) (value : Option Text) :
    (f.withContext key value).context = value.elim f.context (f.context.set key) := by
  cases value <;> rfl

/-- What is found after an operation is recorded: all that was there stays, and the operation
that was replaced by another one is found if nothing was there under the key for it. -/
theorem get?_withOperation (f : Fault) (name key : Text) :
    (f.withOperation name).context.get? key = (f.context.get? key).or
      (if calledKey = key then f.operation.filter (· ≠ name) else none) := by
  rw [context_withOperation]
  cases f.operation.filter (· ≠ name) with
  | none => simp
  | some inner => exact Context.get?_setNew

/-- What is found after a text is set: that text under its key, unless it is none, and all else
as before. -/
theorem get?_withContext (f : Fault) (key other : Text) (value : Option Text) :
    (f.withContext key value).context.get? other =
      (if key = other then value else none).or (f.context.get? other) := by
  rw [context_withContext]
  cases value with
  | none => simp
  | some t =>
      rw [Option.elim_some, Context.get?_set]
      split <;> rfl

variable {f : Fault} {key other t : Text}

theorem get?_withContext_self :
    (f.withContext key (some t)).context.get? key = some t := by
  rw [get?_withContext, if_pos rfl, Option.some_or]

theorem get?_withContext_of_ne {value : Option Text} (h : key ≠ other) :
    (f.withContext key value).context.get? other = f.context.get? other := by
  rw [get?_withContext, if_neg h, Option.none_or]

theorem get?_withOperation_of_some {name : Text} (h : f.context.get? key = some t) :
    (f.withOperation name).context.get? key = some t := by
  rw [get?_withOperation, h, Option.some_or]

end Fault

end DataLake
