import Mathlib.Data.List.Induction
import DataLake.Proofs.FaultContext

/-!
Notes on a fault. On its way out a fault is told which operations it leaves and where that was,
in any order and any number of times. Main statement: what a new fault keeps of these notes is
read off their list. Of the operations it keeps the last one, and the first one too once a
different one was recorded; of the values of a key it keeps the last one; and its message shows
all of it, the keys in the order in which they first appeared.
-/

namespace DataLake

/-- A note on a fault: the operation that it leaves, or a key with its value or null.
Values are of any kind that has a text. -/
inductive Note (Value : Type) where
  | operation (name : Text)
  | context (key : Text) (value : Option Value)

namespace Note

variable {Value : Type}

def apply (text : Value → Text) (f : Fault) : Note Value → Fault
  | operation name => f.withOperation name
  | context key value => f.withContext key (value.map text)

def operation? : Note Value → Option Text
  | operation name => some name
  | context .. => none

/-- The value that a note gives to a key. Null is none. -/
def value? (key : Text) : Note Value → Option Value
  | operation _ => none
  | context k value => if k = key then value else none

def operations (notes : List (Note Value)) : List Text :=
  notes.filterMap operation?

def values (notes : List (Note Value)) (key : Text) : List Value :=
  notes.filterMap (value? key)

/-- At least two different operations are among the given ones. -/
def Varied (operations : List Text) : Prop :=
  ∃ name ∈ operations, ∃ other ∈ operations, name ≠ other

instance (operations : List Text) : Decidable (Varied operations) :=
  inferInstanceAs (Decidable (∃ name ∈ operations, ∃ other ∈ operations, name ≠ other))

/-- There is something to keep under the key after the notes: a value was given to it, or it is
the key for the first operation and a different one was recorded too. -/
def Appears (notes : List (Note Value)) (key : Text) : Prop :=
  values notes key ≠ [] ∨ key = Fault.calledKey ∧ Varied (operations notes)

/-- The key appeared before the later one: some of the notes, from the first one on, were enough
for it and not for the later one. -/
def AppearsBefore (notes : List (Note Value)) (key later : Text) : Prop :=
  ∃ before, before <+: notes ∧ Appears before key ∧ ¬ Appears before later

/-- The first operation, if a different one was recorded too. -/
def innermost? (operations : List Text) : Option Text :=
  if Varied operations then operations.head? else none

/-- The text that is kept under a key: that of the last value given to it, or else, if it is the
key for the first operation, that one. -/
def kept? (text : Value → Text) (notes : List (Note Value)) (key : Text) : Option Text :=
  ((values notes key).getLast?.map text).or
    (if Fault.calledKey = key then innermost? (operations notes) else none)

theorem varied_concat {operations : List Text} {name : Text} :
    Varied (operations ++ [name]) ↔ Varied operations ∨ ∃ other ∈ operations, other ≠ name := by
  constructor
  · rintro ⟨a, ha, b, hb, hne⟩
    rcases List.mem_append.mp ha with ha | ha <;> rcases List.mem_append.mp hb with hb | hb
    · exact .inl ⟨a, ha, b, hb, hne⟩
    · exact .inr ⟨a, ha, List.mem_singleton.mp hb ▸ hne⟩
    · exact .inr ⟨b, hb, List.mem_singleton.mp ha ▸ hne.symm⟩
    · exact absurd ((List.mem_singleton.mp ha).trans (List.mem_singleton.mp hb).symm) hne
  · rintro (⟨a, ha, b, hb, hne⟩ | ⟨a, ha, hne⟩)
    · exact ⟨a, List.mem_append_left _ ha, b, List.mem_append_left _ hb, hne⟩
    · exact ⟨a, List.mem_append_left _ ha, name, List.mem_concat_self, hne⟩

theorem innermost?_eq_some_iff {operations : List Text} {first : Text} :
    innermost? operations = some first ↔ Varied operations ∧ operations.head? = some first := by
  unfold innermost?
  split
  · next hvaried => exact (and_iff_right hvaried).symm
  · next hsame => simp [hsame]

theorem isSome_innermost? {operations : List Text} :
    (innermost? operations).isSome = true ↔ Varied operations := by
  constructor
  · intro hsome
    obtain ⟨first, hfirst⟩ := Option.isSome_iff_exists.mp hsome
    exact (innermost?_eq_some_iff.mp hfirst).1
  · intro hvaried
    have hne : operations ≠ [] := by
      obtain ⟨name, hname, -⟩ := hvaried
      exact List.ne_nil_of_mem hname
    obtain ⟨first, hfirst⟩ := Option.isSome_iff_exists.mp (List.isSome_head?.mpr hne)
    rw [innermost?_eq_some_iff.mpr ⟨hvaried, hfirst⟩]
    rfl

/-- The first operation is also the last one for as long as no different one is recorded. So it
is enough to look at the last one when the next one comes. -/
theorem innermost?_concat (operations : List Text) (name : Text) :
    innermost? (operations ++ [name]) =
      (innermost? operations).or (operations.getLast?.filter (· ≠ name)) := by
  cases operations with
  | nil => simp [innermost?, Varied]
  | cons first rest =>
      by_cases hvaried : Varied (first :: rest)
      · have hfirst : innermost? (first :: rest) = some first :=
          innermost?_eq_some_iff.mpr ⟨hvaried, rfl⟩
        rw [hfirst, Option.some_or]
        exact innermost?_eq_some_iff.mpr ⟨varied_concat.mpr (.inl hvaried), rfl⟩
      · have hsame (o : Text) (ho : o ∈ first :: rest) : o = first :=
          by_contra fun hne => hvaried ⟨o, ho, first, List.mem_cons_self, hne⟩
        have hlast : (first :: rest).getLast? = some first := by
          rw [List.getLast?_eq_some_getLast (List.cons_ne_nil first rest)]
          exact congrArg some (hsame _ (List.getLast_mem _))
        have hnext : Varied (first :: rest ++ [name]) ↔ first ≠ name := by
          rw [varied_concat, or_iff_right hvaried]
          constructor
          · rintro ⟨o, ho, hne⟩
            rwa [← hsame o ho]
          · exact fun hne => ⟨first, List.mem_cons_self, hne⟩
        have hnone : innermost? (first :: rest) = none := if_neg hvaried
        rw [hnone, hlast, Option.none_or, Option.filter_some]
        simp only [innermost?, hnext, decide_eq_true_eq]
        rfl

/-- The last value that a list gives is that of its last item, if this one gives any. -/
theorem getLast?_filterMap_concat {α β : Type} (g : α → Option β) (xs : List α) (x : α) :
    ((xs ++ [x]).filterMap g).getLast? = (g x).or (xs.filterMap g).getLast? := by
  rw [List.filterMap_append, List.getLast?_append]
  cases hx : g x <;> simp [hx]

/-- What was kept before an operation is recorded stays. -/
theorem kept?_operation (text : Value → Text) (notes : List (Note Value)) (name key : Text) :
    kept? text (notes ++ [.operation name]) key = (kept? text notes key).or
      (if Fault.calledKey = key then (operations notes).getLast?.filter (· ≠ name) else none) := by
  have hvalues : values (notes ++ [.operation name]) key = values notes key := by
    simp [values, value?]
  have hoperations : operations (notes ++ [.operation name]) = operations notes ++ [name] := by
    simp [operations, operation?]
  unfold kept?
  rw [hvalues, hoperations, Option.or_assoc, innermost?_concat]
  split <;> rfl

/-- What was kept before a value is given stays if it is under another key. -/
theorem kept?_context (text : Value → Text) (notes : List (Note Value)) (key other : Text)
    (value : Option Value) : kept? text (notes ++ [.context key value]) other =
      (if key = other then value.map text else none).or (kept? text notes other) := by
  have hlast : (values (notes ++ [.context key value]) other).getLast? =
      (if key = other then value else none).or (values notes other).getLast? :=
    getLast?_filterMap_concat (value? other) notes (.context key value)
  have hoperations : operations (notes ++ [.context key value]) = operations notes := by
    simp [operations, operation?]
  unfold kept?
  rw [hlast, hoperations, Option.map_or, Option.or_assoc]
  split <;> rfl

theorem appears_iff (text : Value → Text) {notes : List (Note Value)} {key : Text} :
    Appears notes key ↔ (kept? text notes key).isSome = true := by
  unfold Appears kept?
  rw [Option.isSome_or, Bool.or_eq_true, Option.isSome_map, List.getLast?_isSome]
  apply or_congr_right
  split
  · next hkey => rw [isSome_innermost?, and_iff_right hkey.symm]
  · next hkey => simp [Ne.symm hkey]

theorem AppearsBefore.concat {notes : List (Note Value)} {key later : Text}
    (h : AppearsBefore notes key later) (n : Note Value) :
    AppearsBefore (notes ++ [n]) key later := by
  obtain ⟨before, hbefore, happears, hlater⟩ := h
  exact ⟨before, hbefore.trans (List.prefix_append notes [n]), happears, hlater⟩

/-- A note leaves the keys as they are, or it adds a new one at the end. -/
theorem keys_apply (text : Value → Text) (f : Fault) (n : Note Value) :
    (n.apply text f).context.keys = f.context.keys ∨
      ∃ key ∉ f.context.keys, (n.apply text f).context.keys = f.context.keys ++ [key] := by
  have hadded {key : Text} {keys : List Text}
      (h : keys = if key ∈ f.context.keys then f.context.keys else f.context.keys ++ [key]) :
      keys = f.context.keys ∨ ∃ key ∉ f.context.keys, keys = f.context.keys ++ [key] := by
    split at h
    · exact .inl h
    · next hnew => exact .inr ⟨key, hnew, h⟩
  cases n with
  | operation name =>
      simp only [apply, Fault.context_withOperation]
      cases f.operation.filter (· ≠ name) with
      | none => exact .inl rfl
      | some inner => exact hadded Context.keys_setNew
  | context key value =>
      simp only [apply, Fault.context_withContext]
      cases value with
      | none => exact .inl rfl
      | some v => exact hadded Context.keys_set

end Note

namespace Fault

open Note

variable {Value : Type} (text : Value → Text)

def annotateAll (f : Fault) (notes : List (Note Value)) : Fault :=
  notes.foldl (Note.apply text) f

/-- The state of a fault of the cause after some notes. The key for the first operation may be
among those that they set. -/
structure Annotated (cause : Cause) (notes : List (Note Value)) (f : Fault) : Prop where
  cause_eq : f.cause = cause
  operation_eq : f.operation = (operations notes).getLast?
  get?_eq : ∀ key, f.context.get? key = kept? text notes key
  in_order : f.context.keys.Pairwise (AppearsBefore notes)

def pairText (key t : Text) : Text :=
  key ++ ": " ++ t

/-- What a message shows besides the cause: the operation, unless it is empty, and then the
texts of the context in their order. -/
def extras (operation : Option Text) (context : Context) : List Text :=
  (operation.toList.filter (· ≠ [])).map (pairText "operation") ++
    context.map fun e => pairText e.1 e.2

/-- The extras of a message in brackets, after a blank. There is nothing without extras. -/
def enclosed (extras : List Text) : Text :=
  if extras = [] then [] else " (" ++ Text.joinWith ", " extras ++ ")"

/-- All that a fault of the cause tells after some notes, none of which sets the key for the
first operation. -/
structure Collects (cause : Cause) (notes : List (Note Value)) (f : Fault) : Prop where
  cause_eq : f.cause = cause
  operation_eq : f.operation = (operations notes).getLast?
  called_mem_iff : ∀ first, (calledKey, first) ∈ f.context ↔
    Varied (operations notes) ∧ (operations notes).head? = some first
  mem_iff : ∀ key t, key ≠ calledKey →
    ((key, t) ∈ f.context ↔ (values notes key).getLast?.map text = some t)
  in_order : f.context.Pairwise fun e later => AppearsBefore notes e.1 later.1
  message_eq : f.message =
    message { cause } ++ enclosed (extras (operations notes).getLast? f.context)

variable {text} {cause : Cause} {notes : List (Note Value)} {f : Fault}

theorem Annotated.mem_keys_iff (h : Annotated text cause notes f) {key : Text} :
    key ∈ f.context.keys ↔ Appears notes key := by
  rw [Context.mem_keys_iff, h.get?_eq, appears_iff text]

theorem Annotated.nodup_keys (h : Annotated text cause notes f) : f.context.keys.Nodup := by
  apply h.in_order.imp
  intro key later hbefore hsame
  obtain ⟨before, -, happears, hlater⟩ := hbefore
  exact hlater (hsame ▸ happears)

theorem Annotated.step (h : Annotated text cause notes f) (n : Note Value) :
    Annotated text cause (notes ++ [n]) (n.apply text f) where
  cause_eq := by
    cases n with
    | operation name => exact h.cause_eq
    | context key value => exact (cause_withContext ..).trans h.cause_eq
  operation_eq := by
    cases n with
    | operation name => simp [apply, operations, operation?]
    | context key value => simpa [apply, operations, operation?] using h.operation_eq
  get?_eq key := by
    cases n with
    | operation name =>
        simp only [apply]
        rw [get?_withOperation, h.get?_eq, h.operation_eq, kept?_operation]
    | context k value =>
        simp only [apply]
        rw [get?_withContext, h.get?_eq, kept?_context]
  in_order := by
    have hold : f.context.keys.Pairwise (AppearsBefore (notes ++ [n])) :=
      h.in_order.imp fun hbefore => hbefore.concat n
    rcases keys_apply text f n with hsame | ⟨key, hnew, hkeys⟩
    · rwa [hsame]
    · rw [hkeys]
      apply List.pairwise_append.mpr
      refine ⟨hold, List.pairwise_singleton _ _, ?_⟩
      intro old hmem k hk
      rw [List.mem_singleton.mp hk]
      -- The notes so far are those in which only the old key appears.
      exact ⟨notes, List.prefix_append notes [n], h.mem_keys_iff.mp hmem,
        fun happears => hnew (h.mem_keys_iff.mpr happears)⟩

theorem annotateAll_annotated (text : Value → Text) (cause : Cause)
    (notes : List (Note Value)) :
    Annotated text cause notes (annotateAll text { cause } notes) := by
  induction notes using List.reverseRecOn with
  | nil =>
      have hnone (key : Text) : kept? text ([] : List (Note Value)) key = none := ite_self none
      exact ⟨rfl, rfl, fun key => (hnone key).symm, List.Pairwise.nil⟩
  | append_singleton notes n ih =>
      simp only [annotateAll, List.foldl_append] at ih ⊢
      exact ih.step n

theorem message_eq (f : Fault) :
    f.message = message { cause := f.cause } ++ enclosed (extras f.operation f.context) := by
  have hshown : f.message = if (extras f.operation f.context).isEmpty = true
      then message { cause := f.cause }
      else message { cause := f.cause } ++ " (" ++
        Text.joinWith ", " (extras f.operation f.context) ++ ")" := by
    obtain ⟨cause, operation, context⟩ := f
    cases operation with
    | none => rfl
    | some name => cases name <;> rfl
  rw [hshown]
  unfold enclosed
  by_cases hnone : extras f.operation f.context = []
  · rw [if_pos (List.isEmpty_iff.mpr hnone), if_pos hnone, List.append_nil]
  · rw [if_neg (mt List.isEmpty_iff.mp hnone), if_neg hnone]
    simp only [List.append_assoc]

/-- After any notes, in any order, a new fault has the operation that was recorded last; it holds
the first one too exactly if a different one was recorded; every other key holds the text of its
last value that is not null; the keys are in the order in which they first appeared; and the
message is that of the new fault, then the operation unless it is empty, and then the context in
its order. None of the notes may set the key for the first operation itself. -/
theorem annotateAll_collects (text : Value → Text) (cause : Cause)
    (notes : List (Note Value)) (hcalled : values notes calledKey = []) :
    Collects text cause notes (annotateAll text { cause } notes) := by
  have hstate := annotateAll_annotated text cause notes
  generalize annotateAll text { cause } notes = f at hstate ⊢
  have hmem (key t : Text) : (key, t) ∈ f.context ↔ kept? text notes key = some t := by
    rw [Context.mem_iff_get? hstate.nodup_keys, hstate.get?_eq]
  exact {
    cause_eq := hstate.cause_eq
    operation_eq := hstate.operation_eq
    called_mem_iff := fun first => by
      have hkept : kept? text notes calledKey = innermost? (operations notes) := by
        simp [kept?, hcalled]
      rw [hmem, hkept, innermost?_eq_some_iff]
    mem_iff := fun key t hkey => by
      have hkept : kept? text notes key = (values notes key).getLast?.map text := by
        simp [kept?, hkey.symm]
      rw [hmem, hkept]
    in_order := List.pairwise_map.mp hstate.in_order
    message_eq := by rw [message_eq, hstate.cause_eq, hstate.operation_eq] }

/-- Notes on the way out of three operations, the first and the last of one name. -/
def reopenedNotes : List (Note Json) :=
  [.context "path" (some (.string "a")), .operation "Writer::append",
    .operation "Writer::append", .context "position" (some (.integer 4)),
    .operation "Backend::stat", .context "path" (some (.string "b")),
    .context "called" none, .context "position" none, .operation "Writer::append"]

theorem annotateAll_collects_reopened :
    values reopenedNotes calledKey = [] ∧ Collects Json.text (.writerClosed "a") reopenedNotes
      (annotateAll Json.text { cause := .writerClosed "a" } reopenedNotes) := by
  have hcalled : values reopenedNotes calledKey = [] := by decide
  exact ⟨hcalled, annotateAll_collects Json.text (.writerClosed "a") reopenedNotes hcalled⟩

example : (annotateAll Json.text { cause := .writerClosed "a" } reopenedNotes).context =
    ([("path", "b"), ("position", "4"), ("called", "Writer::append")] : Context) := by
  decide

end Fault

end DataLake
