/-! # Sorting by a key

A list sorted by a key has its keys in order, and where no two items have one key the sorted list
does not show in which order the items came (`mergeSort_eq_of_perm`). Items of one key stay in the
order of the input (`filter_mergeSort_key`). A list that ascends strictly holds nothing twice and is
determined by what it holds (`eq_of_ascending`).

Keys are compared by their order instance, and all lists are sorted by the same function with
different keys: snapshots by label, modules by sort key, pointers and paths by text. What is shown
here of any key is used for each of them. -/

namespace Prospectus

open Std

variable {α κ : Type _} [Ord κ]

theorem compare_isLE_total [TransOrd κ] (a b : κ) :
    ((compare a b).isLE || (compare b a).isLE) = true := by
  have hswap : compare b a = (compare a b).swap := OrientedCmp.eq_swap
  rw [hswap]
  cases compare a b <;> rfl

theorem compare_lt_irrefl [TransOrd κ] (a : κ) : compare a a ≠ .lt := by
  simp [ReflCmp.compare_self]

theorem compare_lt_of_isLE [LawfulEqOrd κ] {a b : κ} (h : (compare a b).isLE) (hne : a ≠ b) :
    compare a b = .lt :=
  (Ordering.isLE_iff_eq_lt_or_eq_eq.mp h).resolve_right fun heq =>
    hne (LawfulEqOrd.eq_of_compare heq)

theorem eq_of_isLE_of_isLE [TransOrd κ] [LawfulEqOrd κ] {a b : κ} (hab : (compare a b).isLE)
    (hba : (compare b a).isLE) : a = b :=
  LawfulEqOrd.eq_of_compare (OrientedCmp.isLE_antisymm hab hba)

theorem pairwise_mergeSort_key [TransOrd κ] (key : α → κ) (l : List α) :
    (l.mergeSort fun a b => (compare (key a) (key b)).isLE).Pairwise
      fun a b => (compare (key a) (key b)).isLE :=
  List.pairwise_mergeSort (fun _ _ _ => TransCmp.isLE_trans) (fun _ _ => compare_isLE_total _ _) l

/-- Sorted by keys that are all different, a list ascends strictly. -/
theorem ascending_mergeSort_key [TransOrd κ] [LawfulEqOrd κ] (key : α → κ) {l : List α}
    (h : (l.map key).Nodup) : (l.mergeSort fun a b => (compare (key a) (key b)).isLE).Pairwise
      fun a b => compare (key a) (key b) = .lt := by
  have hapart : (l.mergeSort fun a b => (compare (key a) (key b)).isLE).Pairwise
      fun a b => key a ≠ key b :=
    List.pairwise_map.mp (((List.mergeSort_perm ..).map key).nodup_iff.mpr h)
  refine (pairwise_mergeSort_key key l).imp₂ ?_ hapart
  exact fun _ _ => compare_lt_of_isLE

/-- Sorting forgets the order of the input if no two items count as equal. -/
theorem mergeSort_eq_of_perm {le : α → α → Bool} (trans : ∀ a b c, le a b → le b c → le a c)
    (total : ∀ a b, (le a b || le b a) = true) {l l' : List α} (h : l.Perm l')
    (antisymm : ∀ a b, a ∈ l → b ∈ l → le a b → le b a → a = b) :
    l.mergeSort le = l'.mergeSort le := by
  have hl : (l.mergeSort le).Perm l := List.mergeSort_perm ..
  have hl' : (l'.mergeSort le).Perm l' := List.mergeSort_perm ..
  refine List.Perm.eq_of_pairwise ?_ (List.pairwise_mergeSort trans total l)
    (List.pairwise_mergeSort trans total l') (hl.trans (h.trans hl'.symm))
  intro a b ha hb
  exact antisymm a b (hl.mem_iff.mp ha) (h.mem_iff.mpr (hl'.mem_iff.mp hb))

/-- Sorting does not move items that have one key past each other. -/
theorem filter_mergeSort_key [TransOrd κ] (key : α → κ) (p : α → Bool) {l : List α}
    (h : ∀ a ∈ l, ∀ b ∈ l, p a → p b → (compare (key a) (key b)).isLE) :
    (l.mergeSort fun a b => (compare (key a) (key b)).isLE).filter p = l.filter p := by
  have hperm := List.mergeSort_perm l fun a b => (compare (key a) (key b)).isLE
  have hties : (l.filter p).Pairwise fun a b => (compare (key a) (key b)).isLE = true := by
    apply List.pairwise_of_forall_mem_list
    intro a ha b hb
    obtain ⟨ha, hpa⟩ := List.mem_filter.mp ha
    obtain ⟨hb, hpb⟩ := List.mem_filter.mp hb
    exact h a ha b hb hpa hpb
  -- a part of the list that is in order already survives the sort as it is
  have hsub := List.sublist_mergeSort (fun _ _ _ => TransCmp.isLE_trans)
    (fun _ _ => compare_isLE_total _ _) hties List.filter_sublist
  have hsub := hsub.filter p
  rw [List.filter_eq_self.mpr fun a ha => (List.mem_filter.mp ha).2] at hsub
  -- two lists of one length, the one a part of the other
  symm
  apply hsub.eq_of_length
  exact (hperm.filter p).length_eq.symm

/-! ### Lists that ascend strictly -/

theorem nodup_of_ascending [TransOrd κ] {l : List κ}
    (h : l.Pairwise fun a b => compare a b = .lt) : l.Nodup := by
  apply h.imp
  rintro a b hlt rfl
  exact compare_lt_irrefl a hlt

theorem eq_of_ascending [TransOrd κ] {l l' : List κ}
    (h : l.Pairwise fun a b => compare a b = .lt) (h' : l'.Pairwise fun a b => compare a b = .lt)
    (hmem : ∀ a, a ∈ l ↔ a ∈ l') : l = l' := by
  have hperm : l.Perm l' :=
    (List.perm_ext_iff_of_nodup (nodup_of_ascending h) (nodup_of_ascending h')).mpr hmem
  apply hperm.eq_of_pairwise _ h h'
  intro a b _ _ hab hba
  have hlt := TransCmp.lt_trans hab hba
  exact absurd hlt (compare_lt_irrefl a)

end Prospectus
