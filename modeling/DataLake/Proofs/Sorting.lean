import DataLake.Proofs.CanonicalForm

/-!
Sorting into canonical form. Texts are sorted by their code points, and pairs of them by the
first and then by the second. Both are linear orders, so what is sorted depends on what there
is to sort alone, and not on the places where it stood.
-/

namespace DataLake

/-- A test that puts things into a linear order. -/
structure Orders {α : Type} (le : α → α → Bool) : Prop where
  trans : ∀ a b c, le a b = true → le b c = true → le a c = true
  total : ∀ a b, (le a b || le b a) = true
  antisymm : ∀ a b, le a b = true → le b a = true → a = b

namespace Orders

variable {α : Type} {le : α → α → Bool} {xs ys : List α}

theorem mergeSort_eq (h : Orders le) (hperm : xs.Perm ys) : xs.mergeSort le = ys.mergeSort le := by
  refine List.Perm.eq_of_pairwise (fun a b _ _ => h.antisymm a b) ?_ ?_ ?_
  · exact List.pairwise_mergeSort h.trans h.total xs
  · exact List.pairwise_mergeSort h.trans h.total ys
  · exact (List.mergeSort_perm xs le).trans (hperm.trans (List.mergeSort_perm ys le).symm)

end Orders

namespace Text

theorem atMost_cons (a b : CodePoint) (s t : Text) : atMost (a :: s) (b :: t) = true ↔
    a.toNat < b.toNat ∨ a.toNat = b.toNat ∧ atMost s t = true := by
  rw [atMost, Bool.or_eq_true, decide_eq_true_eq, Bool.and_eq_true, beq_iff_eq,
    CodePoint.toNat_inj]

theorem atMost_trans {s t u : Text} (hst : atMost s t = true) (htu : atMost t u = true) :
    atMost s u = true := by
  induction s generalizing t u with
  | nil => rfl
  | cons a s ih =>
      cases t with
      | nil => cases hst
      | cons b t =>
          cases u with
          | nil => cases htu
          | cons c u =>
              rw [atMost_cons] at hst htu ⊢
              rcases hst with hab | ⟨hab, hst⟩
              · exact .inl (by omega)
              · exact htu.imp (fun hbc => by omega) fun ⟨hbc, htu⟩ => ⟨by omega, ih hst htu⟩

theorem atMost_total (s t : Text) : atMost s t = true ∨ atMost t s = true := by
  induction s generalizing t with
  | nil => exact .inl rfl
  | cons a s ih =>
      cases t with
      | nil => exact .inr rfl
      | cons b t =>
          rw [atMost_cons, atMost_cons]
          rcases Nat.lt_trichotomy a.toNat b.toNat with hab | hab | hab
          · exact .inl (.inl hab)
          · exact (ih t).imp (fun h => .inr ⟨hab, h⟩) fun h => .inr ⟨hab.symm, h⟩
          · exact .inr (.inl hab)

theorem atMost_antisymm {s t : Text} (hst : atMost s t = true) (hts : atMost t s = true) :
    s = t := by
  induction s generalizing t with
  | nil =>
      cases t with
      | nil => rfl
      | cons b t => cases hts
  | cons a s ih =>
      cases t with
      | nil => cases hst
      | cons b t =>
          rw [atMost_cons] at hst hts
          obtain ⟨hab, hst⟩ := hst.resolve_left (by omega)
          obtain ⟨_, hts⟩ := hts.resolve_left (by omega)
          rw [CodePoint.toNat_inj.mp hab, ih hst hts]

theorem orders_atMost : Orders atMost where
  trans _ _ _ := atMost_trans
  total s t := (Bool.or_eq_true _ _).mpr (atMost_total s t)
  antisymm _ _ := atMost_antisymm

end Text

namespace Signing

theorem pairAtMost_iff (a b : Text × Text) : pairAtMost a b = true ↔
    Text.atMost a.1 b.1 = true ∧ (a.1 = b.1 → Text.atMost a.2 b.2 = true) := by
  unfold pairAtMost
  by_cases hkey : a.1 = b.1
  · have hrefl : Text.atMost b.1 b.1 = true := or_self_iff.mp (Text.atMost_total b.1 b.1)
    simp [hkey, hrefl]
  · simp [hkey]

theorem orders_pairAtMost : Orders pairAtMost where
  trans a b c := by
    rw [pairAtMost_iff, pairAtMost_iff, pairAtMost_iff]
    rintro ⟨hab, hab'⟩ ⟨hbc, hbc'⟩
    refine ⟨Text.atMost_trans hab hbc, fun hac => ?_⟩
    -- A key between equal keys is equal to them.
    have hkey : a.1 = b.1 := Text.atMost_antisymm hab (hac ▸ hbc)
    exact Text.atMost_trans (hab' hkey) (hbc' (hkey.symm.trans hac))
  total a b := by
    rw [Bool.or_eq_true, pairAtMost_iff, pairAtMost_iff]
    by_cases hkey : a.1 = b.1
    · have hrefl : Text.atMost b.1 b.1 = true := or_self_iff.mp (Text.atMost_total b.1 b.1)
      rw [hkey]
      exact (Text.atMost_total a.2 b.2).imp (fun h => ⟨hrefl, fun _ => h⟩)
        fun h => ⟨hrefl, fun _ => h⟩
    · exact (Text.atMost_total a.1 b.1).imp (fun h => ⟨h, fun heq => absurd heq hkey⟩)
        fun h => ⟨h, fun heq => absurd heq.symm hkey⟩
  antisymm a b := by
    rw [pairAtMost_iff, pairAtMost_iff]
    rintro ⟨hab, hab'⟩ ⟨hba, hba'⟩
    have hkey : a.1 = b.1 := Text.atMost_antisymm hab hba
    exact Prod.ext hkey (Text.atMost_antisymm (hab' hkey) (hba' hkey.symm))

theorem serviceHeaders_perm {h h' : Headers} (hperm : h.Perm h') :
    serviceHeaders h = serviceHeaders h' :=
  orders_pairAtMost.mergeSort_eq ((hperm.filter _).map _)

section Query

variable {fields fields' : List (Text × Text)}

theorem valuesOf_perm (h : fields.Perm fields') (key : Text) :
    valuesOf fields key = valuesOf fields' key :=
  Text.orders_atMost.mergeSort_eq ((h.filter _).map _)

theorem nodup_eraseDups (keys : List Text) : keys.eraseDups.Nodup := by
  match keys with
  | [] => exact List.nodup_nil
  | key :: keys =>
      rw [List.eraseDups_cons, List.nodup_cons]
      exact ⟨by simp [List.mem_eraseDups], nodup_eraseDups _⟩
termination_by keys.length
decreasing_by exact Nat.lt_succ_of_le (List.length_filter_le _ _)

theorem eraseDups_perm {keys keys' : List Text} (h : keys.Perm keys') :
    keys.eraseDups.Perm keys'.eraseDups := by
  rw [List.perm_ext_iff_of_nodup (nodup_eraseDups keys) (nodup_eraseDups keys')]
  intro key
  rw [List.mem_eraseDups, List.mem_eraseDups, h.mem_iff]

/-- The canonical form of the address of a request does not depend on the order of its query
fields. -/
theorem canonicalResource_perm (account : Text) {parts parts' : Url.Parts}
    (hpath : parts.path = parts'.path)
    (hfields : (lowered (Url.decodeQuery parts.query)).Perm
      (lowered (Url.decodeQuery parts'.query))) :
    canonicalResource account parts = canonicalResource account parts' := by
  have hkeys := Text.orders_atMost.mergeSort_eq (eraseDups_perm (hfields.map Prod.fst))
  have hline : keyLine (lowered (Url.decodeQuery parts.query)) =
      keyLine (lowered (Url.decodeQuery parts'.query)) := by
    funext key
    unfold keyLine
    rw [valuesOf_perm hfields]
  unfold lowered at hkeys hline
  unfold canonicalResource
  dsimp only
  rw [hpath, hkeys, hline]

end Query

end Signing

end DataLake
