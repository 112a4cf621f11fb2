import DataLake.Proofs.Construction

/-!
Sequences of setter calls. A setter is documented to leave its setting alone when it is given
nothing, so that a setting ends up with the last thing that was given for it. Two setters do
more than that: the one of the filesystem puts in whatever it is given, and the one of the
endpoint looks for nothing before it trims the slashes away.
-/

namespace DataLake

namespace Settings

/-- The settings after some calls of setters, in order. -/
def assignAll (s : Settings) (calls : List (Field × Option Text)) : Settings :=
  calls.foldl (fun s call => s.assign call.1 call.2) s

/-- What an argument counts as, unless it counts as empty. An endpoint counts without the
slashes at its end. -/
def counted? (f : Field) (value : Option Text) : Option Text :=
  given (value.map (trimmed f))

/-- The documented value of a setting: the last argument for it that does not count as empty,
or else the value that it had. -/
def documented (s : Settings) (calls : List (Field × Option Text)) (f : Field) : Option Text :=
  ((calls.filterMap fun call => if call.1 = f then counted? f call.2 else none).getLast?).or
    (s.get f)

/-- The setter leaves the setting alone when it is given this. -/
def Passes (f : Field) (value : Option Text) : Prop :=
  f ≠ .filesystem ∧ given value = none

/-- The argument counts as empty, and its setter puts it in. -/
inductive Empties : Field → Option Text → Prop where
  | filesystem {value : Option Text} (hempty : given value = none) : Empties .filesystem value
  | endpoint {slashes : Text} (hne : slashes ≠ []) (hslashes : ∀ c ∈ slashes, c = .char '/') :
      Empties .endpoint (some slashes)

/-- The last call that does anything to the setting empties it. -/
def Emptied (calls : List (Field × Option Text)) (f : Field) : Prop :=
  ∃ before value after, calls = before ++ (f, value) :: after ∧ Empties f value ∧
    ∀ later, (f, later) ∈ after → Passes f later

theorem assigned?_eq_none_iff {f : Field} {value : Option Text} :
    assigned? f value = none ↔ Passes f value := by
  unfold assigned? Passes
  split
  · next hf => simp [hf]
  · next hf => simp [hf]

theorem assigned?_eq_nil_iff {f : Field} {value : Option Text} :
    assigned? f value = some [] ↔ Empties f value := by
  constructor
  · intro h
    unfold assigned? at h
    split at h
    · next hf =>
      subst hf
      refine .filesystem ?_
      cases value with
      | none => rfl
      | some t =>
          rw [show t = [] from Option.some.inj h]
          rfl
    · obtain ⟨t, hgiven, htrimmed⟩ := Option.map_eq_some_iff.mp h
      obtain ⟨rfl, hne⟩ := Signing.given_eq_some hgiven
      cases f with
      | endpoint => exact .endpoint hne (Path.dropTrailingSlashes_eq_nil_iff.mp htrimmed)
      | _ => exact absurd htrimmed hne
  · rintro (hempty | ⟨hne, hslashes⟩)
    · unfold assigned?
      rw [if_pos rfl]
      cases value with
      | none => rfl
      | some t =>
          by_cases ht : t = []
          · rw [ht]
            rfl
          · rw [Signing.given_some ht] at hempty
            cases hempty
    · unfold assigned?
      rw [if_neg (by decide), Signing.given_some hne]
      exact congrArg some (Path.dropTrailingSlashes_eq_nil_iff.mpr hslashes)

/-- What counts is what the setter puts in, unless that is nothing. -/
theorem given_assigned? (f : Field) (value : Option Text) :
    given (assigned? f value) = counted? f value := by
  unfold assigned? counted?
  cases value with
  | none => split <;> rfl
  | some t =>
      split
      · next hf =>
        subst hf
        rfl
      · by_cases ht : t = []
        · subst ht
          cases f <;> rfl
        · rw [Signing.given_some ht]

/-- A value is the last one exactly if no item after the one that has it has any. -/
theorem getLast?_filterMap_eq_some_iff {α β : Type} {g : α → Option β} {xs : List α} {b : β} :
    (xs.filterMap g).getLast? = some b ↔
      ∃ before x after, xs = before ++ x :: after ∧ g x = some b ∧ ∀ y ∈ after, g y = none := by
  rw [List.getLast?_filterMap, List.findSome?_eq_some_iff]
  constructor
  · rintro ⟨after, x, before, hxs, hx, hafter⟩
    refine ⟨before.reverse, x, after.reverse, ?_, hx, fun y hy => hafter y (by simpa using hy)⟩
    simpa using congrArg List.reverse hxs
  · rintro ⟨before, x, after, rfl, hx, hafter⟩
    exact ⟨after.reverse, x, before.reverse, by simp, hx,
      fun y hy => hafter y (List.mem_reverse.mp hy)⟩

variable (s : Settings) (calls : List (Field × Option Text)) (f : Field)

/-- The values that calls of its setter put into a setting, in order. -/
def assignedIn : List Text :=
  calls.filterMap fun call => if call.1 = f then assigned? f call.2 else none

theorem get_assignAll :
    (s.assignAll calls).get f = ((assignedIn calls f).getLast?).or (s.get f) :=
  get_assigns calls s f

theorem documented_eq : s.documented calls f =
    (((assignedIn calls f).filterMap fun t => given (some t)).getLast?).or (s.get f) := by
  unfold documented assignedIn
  rw [List.filterMap_filterMap]
  have hcounted (call : Field × Option Text) :
      (if call.1 = f then counted? f call.2 else none) =
        (if call.1 = f then assigned? f call.2 else none).bind fun t => given (some t) := by
    by_cases hf : call.1 = f
    · rw [if_pos hf, if_pos hf, ← given_assigned?]
      rfl
    · rw [if_neg hf, if_neg hf]
      rfl
  simp only [hcounted]

theorem emptied_iff : Emptied calls f ↔ (assignedIn calls f).getLast? = some [] := by
  unfold assignedIn
  rw [getLast?_filterMap_eq_some_iff]
  constructor
  · rintro ⟨before, value, after, rfl, hempties, hafter⟩
    refine ⟨before, _, after, rfl, ?_, fun call hcall => ?_⟩
    · exact (if_pos rfl).trans (assigned?_eq_nil_iff.mpr hempties)
    · split
      · next hf =>
        subst hf
        exact assigned?_eq_none_iff.mpr (hafter call.2 hcall)
      · rfl
  · rintro ⟨before, ⟨g, value⟩, after, rfl, hempties, hafter⟩
    dsimp only at hempties
    split at hempties
    · next hg =>
      subst hg
      refine ⟨before, value, after, rfl, assigned?_eq_nil_iff.mp hempties, fun later hlater => ?_⟩
      have hnone := hafter _ hlater
      rw [if_pos rfl] at hnone
      exact assigned?_eq_none_iff.mp hnone
    · cases hempties

/-- A setting has its documented value after any calls of setters, unless the last call that
did anything to it emptied it and the documented value is another one. Only the filesystem and
the endpoint can be emptied, and they are empty then. -/
theorem assignAll_documented_iff :
    ((s.assignAll calls).get f = s.documented calls f ↔
      (Emptied calls f → s.documented calls f = some [])) ∧
    (Emptied calls f → (f = .filesystem ∨ f = .endpoint) ∧
      (s.assignAll calls).get f = some []) := by
  have hwhich (h : Emptied calls f) : f = .filesystem ∨ f = .endpoint := by
    obtain ⟨_, _, _, _, hempties, _⟩ := h
    cases hempties with
    | filesystem => exact .inl rfl
    | endpoint => exact .inr rfl
  rw [emptied_iff] at hwhich ⊢
  rw [get_assignAll, documented_eq]
  cases hlast : (assignedIn calls f).getLast? with
  | none =>
      rw [List.getLast?_eq_none_iff.mp hlast]
      simp
  | some t =>
      by_cases ht : t = []
      · subst ht
        exact ⟨⟨fun h _ => h.symm, fun h => (h rfl).symm⟩, fun _ => ⟨hwhich hlast, rfl⟩⟩
      · obtain ⟨before, hbefore⟩ := List.getLast?_eq_some_iff.mp hlast
        have hcounts : ((assignedIn calls f).filterMap fun t => given (some t)).getLast? =
            some t := by
          rw [hbefore, List.filterMap_append]
          simp [Signing.given_some ht]
        rw [hcounts]
        simp [ht]

/-- Calls that give nothing, or give it after something. -/
def archiveCalls : List (Field × Option Text) :=
  [(.root, some "/archive"), (.filesystem, some "data"), (.root, some ""), (.accountName, none),
    (.endpoint, some "https://acct.dfs.core.windows.net/"), (.root, none)]

theorem assignAll_documented_archive :
    (({} : Settings).assignAll archiveCalls).get .root = some "/archive" := by
  obtain ⟨hiff, hemptied⟩ := assignAll_documented_iff {} archiveCalls .root
  rw [hiff.mpr fun h => absurd (hemptied h).1 (by decide)]
  decide

/-- The setter of the filesystem puts in nothing where something was, and so does the one of
the endpoint when it is given a slash. -/
theorem emptied_by_nothing :
    (({} : Settings).assignAll [(.filesystem, some "data"), (.filesystem, some "")]).get
        .filesystem = some [] ∧
      ({} : Settings).documented [(.filesystem, some "data"), (.filesystem, some "")]
        .filesystem = some "data" ∧
      (({} : Settings).assignAll [(.endpoint, some "https://acct.dfs.core.windows.net"),
        (.endpoint, some "/")]).get .endpoint = some [] ∧
      ({} : Settings).documented [(.endpoint, some "https://acct.dfs.core.windows.net"),
        (.endpoint, some "/")] .endpoint = some "https://acct.dfs.core.windows.net" := by
  decide

end Settings

end DataLake
