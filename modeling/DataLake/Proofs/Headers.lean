import DataLake.Http.Message

/-!
Headers that are set and found. A header that is set is found under any spelling
of its name, and setting it changes what is found under no other name. Headers that
were set one after the other have distinct names, so each of them can be found.
-/

namespace DataLake.Headers

variable {h : Headers} {name other value : Text}

theorem get?_cons (e : Text × Text) (h : Headers) (name : Text) :
    get? (e :: h) name = if Text.sameLower e.1 name then some e.2 else get? h name := by
  unfold get?
  rw [List.find?_cons]
  cases Text.sameLower e.1 name <;> rfl

theorem get?_set_self (h : Headers) (name value : Text) : (h.set name value).get? name = some value := by
  induction h with
  | nil => simp [set, get?_cons, Text.sameLower]
  | cons e h ih =>
      unfold set
      split
      · simp [get?_cons, Text.sameLower]
      · next hother => rw [get?_cons, if_neg hother, ih]

theorem get?_set_of_ne (hother : Text.sameLower name other = false) :
    (h.set name value).get? other = h.get? other := by
  induction h with
  | nil => simp [set, get?_cons, hother]
  | cons e h ih =>
      unfold set
      split
      · next hsame =>
        -- The header that is replaced is no more found under the other name than the new one.
        have hold : Text.sameLower e.1 other = false := by
          unfold Text.sameLower at *
          rwa [beq_iff_eq.mp hsame]
        rw [get?_cons, get?_cons, if_neg (by simp [hother]), if_neg (by simp [hold])]
      · rw [get?_cons, get?_cons, ih]

theorem exists_of_get? {v : Text} (hget : h.get? name = some v) :
    ∃ n, (n, v) ∈ h ∧ Text.sameLower n name = true := by
  obtain ⟨e, hfind, rfl⟩ := Option.map_eq_some_iff.mp hget
  have hsame := List.find?_some hfind
  exact ⟨e.1, List.mem_of_find?_eq_some hfind, hsame⟩

theorem mem_set {e : Text × Text} (hmem : e ∈ h.set name value) : e = (name, value) ∨ e ∈ h := by
  induction h with
  | nil => exact .inl (List.mem_singleton.mp hmem)
  | cons first h ih =>
      unfold set at hmem
      split at hmem
      · rcases List.mem_cons.mp hmem with heq | hmem
        · exact .inl heq
        · exact .inr (List.mem_cons_of_mem first hmem)
      · rcases List.mem_cons.mp hmem with heq | hmem
        · exact .inr (heq ▸ List.mem_cons_self)
        · exact (ih hmem).imp_right (List.mem_cons_of_mem first)

theorem mem_ofList {pairs : List (Text × Text)} {e : Text × Text} (hmem : e ∈ ofList pairs) :
    e ∈ pairs := by
  have hfrom (pairs : List (Text × Text)) (h : Headers)
      (hmem : e ∈ pairs.foldl (fun h p => h.set p.1 p.2) h) : e ∈ h ∨ e ∈ pairs := by
    induction pairs generalizing h with
    | nil => exact .inl hmem
    | cons pair pairs ih =>
        rcases ih _ hmem with hset | hrest
        · rcases mem_set hset with rfl | hold
          · exact .inr List.mem_cons_self
          · exact .inl hold
        · exact .inr (List.mem_cons_of_mem pair hrest)
  exact (hfrom pairs [] hmem).resolve_left List.not_mem_nil

/-- No two headers have names that differ in letter case only. -/
def Distinct (h : Headers) : Prop :=
  h.Pairwise fun e later => Text.sameLower e.1 later.1 = false

theorem Distinct.set (hdistinct : h.Distinct) (name value : Text) : (h.set name value).Distinct := by
  induction h with
  | nil => exact List.pairwise_singleton _ _
  | cons e h ih =>
      obtain ⟨hfirst, hrest⟩ := List.pairwise_cons.mp hdistinct
      unfold Headers.set
      split
      · next hsame =>
        -- The new header is distinct from the later ones because the old one was.
        refine List.pairwise_cons.mpr ⟨fun later hlater => ?_, hrest⟩
        have hother := hfirst later hlater
        unfold Text.sameLower at hsame hother ⊢
        rwa [← beq_iff_eq.mp hsame]
      · next hother =>
        refine List.pairwise_cons.mpr ⟨fun later hlater => ?_, ih hrest⟩
        rcases mem_set hlater with rfl | hlater
        · exact Bool.eq_false_iff.mpr hother
        · exact hfirst later hlater

theorem distinct_ofList (pairs : List (Text × Text)) : (ofList pairs).Distinct :=
  List.foldlRecOn (motive := Distinct) pairs _ List.Pairwise.nil fun _ hdistinct p _ =>
    hdistinct.set p.1 p.2

/-- Each of distinct headers is the one that is found under its name. -/
theorem Distinct.get?_of_mem (hdistinct : h.Distinct) {v : Text} (hmem : (name, v) ∈ h) :
    h.get? name = some v := by
  induction h with
  | nil => cases hmem
  | cons e h ih =>
      obtain ⟨hfirst, hrest⟩ := List.pairwise_cons.mp hdistinct
      rw [get?_cons]
      rcases List.mem_cons.mp hmem with rfl | hmem
      · rw [if_pos (by simp [Text.sameLower])]
      · rw [if_neg (by simp [hfirst _ hmem]), ih hrest hmem]

end DataLake.Headers
