import Mathlib.Data.List.Forall2
import Mathlib.Data.List.Nodup
import Prospectus.Proofs.Reconcile.Passes
import Prospectus.Proofs.Sorting

/-!
# The order of the walk

Snapshots are sorted before anything else happens to them. Whether two of them share a label, and
which label that is, hangs on the labels alone (`sharedYear?_eq_some_iff`), and without a shared
label the sorted list does not show the order of the input (`Distinct.walk_eq_of_perm`). So
reconciling either fails with the least shared label or comes to `Outcome.ofWalk` of an ascending
list:

    reconcile_of_leastShared : LeastShared y l → reconcile e l = .error (.sharedAcademicYear y)
    reconcile_of_distinct : Distinct l → reconcile e l = .ok (.ofWalk e (walk l))

and `distinct_or_leastShared` says that these are all cases.
-/

namespace Prospectus

open Std

namespace Snapshot

/-- No two snapshots have one label. Labels are compared as they are written; two labels may well
start in one calendar year. -/
def Distinct (l : List Snapshot) : Prop := (l.map academicYear).Nodup

instance (l : List Snapshot) : Decidable (Distinct l) := inferInstanceAs (Decidable (List.Nodup _))

/-- Snapshots by strictly ascending label. -/
def Ascending (l : List Snapshot) : Prop :=
  l.Pairwise fun a b => compare a.academicYear b.academicYear = .lt

instance (l : List Snapshot) : Decidable (Ascending l) :=
  inferInstanceAs (Decidable (List.Pairwise _ _))

/-- The least label that more than one snapshot has. There is one whenever labels are not distinct,
and one only. -/
structure LeastShared (y : AcademicYear) (l : List Snapshot) : Prop where
  shared : 2 ≤ (l.map academicYear).count y
  least : ∀ z, 2 ≤ (l.map academicYear).count z → (compare y z).isLE

/-! ### Sorting

The sort is by label and stable. A permutation of a list has the same sorted list if no label is
repeated, as there is one way only to put distinct labels in order. The lemmas on lists that
correspond to each other serve where snapshots are changed one by one without a change of labels, as
scrubbing does. -/

theorem walk_perm (l : List Snapshot) : (walk l).Perm l := List.mergeSort_perm ..

/-- Labels do not descend along the walk. -/
theorem walk_sorted (l : List Snapshot) :
    (walk l).Pairwise fun a b => (compare a.academicYear b.academicYear).isLE :=
  pairwise_mergeSort_key academicYear l

theorem Ascending.distinct {l : List Snapshot} (h : Ascending l) : Distinct l :=
  nodup_of_ascending (List.pairwise_map.mpr h)

theorem Distinct.perm {l l' : List Snapshot} (h : l.Perm l') (hl : Distinct l) : Distinct l' :=
  (h.map _).nodup_iff.mp hl

theorem LeastShared.perm {l l' : List Snapshot} {y : AcademicYear} (h : l.Perm l')
    (hl : LeastShared y l) : LeastShared y l' := by
  have hcount : ∀ z, (l'.map academicYear).count z = (l.map academicYear).count z :=
    fun z => (h.symm.map academicYear).count_eq z
  exact ⟨hcount y ▸ hl.shared, fun z hz => hl.least z (hcount z ▸ hz)⟩

theorem distinct_congr {l l' : List Snapshot} (h : l.map academicYear = l'.map academicYear) :
    Distinct l ↔ Distinct l' := by
  rw [Distinct, Distinct, h]

/-- Which labels are shared is a matter of the labels alone. -/
theorem leastShared_congr {l l' : List Snapshot} (h : l.map academicYear = l'.map academicYear)
    {y : AcademicYear} : LeastShared y l ↔ LeastShared y l' := by
  constructor
  · rintro ⟨hshared, hleast⟩
    rw [h] at hshared hleast
    exact ⟨hshared, hleast⟩
  · rintro ⟨hshared, hleast⟩
    rw [← h] at hshared hleast
    exact ⟨hshared, hleast⟩

/-- Where labels are distinct, they tell the snapshots apart. -/
theorem Distinct.eq_of_academicYear_eq {l : List Snapshot} (h : Distinct l) {a b : Snapshot}
    (ha : a ∈ l) (hb : b ∈ l) (hab : a.academicYear = b.academicYear) : a = b :=
  List.inj_on_of_nodup_map h ha hb hab

theorem Distinct.walk_eq_of_perm {l l' : List Snapshot} (h : l.Perm l') (hd : Distinct l) :
    walk l = walk l' :=
  mergeSort_eq_of_perm (fun _ _ _ => TransCmp.isLE_trans) (fun _ _ => compare_isLE_total _ _) h
    fun _ _ ha hb hab hba => hd.eq_of_academicYear_eq ha hb (eq_of_isLE_of_isLE hab hba)

theorem map_eq_of_forall₂ {α : Type _} {R : Snapshot → Snapshot → Prop} {f : Snapshot → α}
    (hf : ∀ c d, R c d → f c = f d) {l l' : List Snapshot} (h : List.Forall₂ R l l') :
    l.map f = l'.map f := by
  induction h with
  | nil => rfl
  | cons hd _ ih => rw [List.map_cons, List.map_cons, hf _ _ hd, ih]

/-- Lists whose snapshots correspond to each other and have the same labels are sorted alike. -/
theorem forall₂_walk {R : Snapshot → Snapshot → Prop}
    (hyear : ∀ c d, R c d → c.academicYear = d.academicYear) {l l' : List Snapshot}
    (h : List.Forall₂ R l l') : List.Forall₂ R (walk l) (walk l') := by
  obtain ⟨hlength, hzip⟩ := List.forall₂_iff_zip.mp h
  -- sorting either list is sorting the list of pairs
  let pairs := (l.zip l').mergeSort fun p q => (compare p.1.academicYear q.1.academicYear).isLE
  have hfst : pairs.map Prod.fst = walk l := by
    rw [walk, ← List.map_fst_zip (Nat.le_of_eq hlength)]
    exact List.map_mergeSort fun _ _ _ _ => rfl
  have hsnd : pairs.map Prod.snd = walk l' := by
    rw [walk, ← List.map_snd_zip (Nat.le_of_eq hlength.symm)]
    apply List.map_mergeSort
    intro p hp q hq
    rw [hyear _ _ (hzip hp), hyear _ _ (hzip hq)]
  rw [← hfst, ← hsnd, List.forall₂_map_left_iff, List.forall₂_map_right_iff]
  refine List.forall₂_same.mpr fun p hp => ?_
  exact hzip (List.mem_mergeSort.mp hp)

/-! ### Neighbours with one label

The program looks for two neighbours with one label in the sorted list, and names the first that it
finds. Equal labels stand together there, so finding none means that there are none, and the first
that is found is the least. -/

/-- In a sorted list without equal neighbours the labels ascend strictly. Equal labels would be
neighbours. -/
theorem ascending_of_sharedYear?_eq_none {l : List Snapshot}
    (hs : l.Pairwise fun a b => (compare a.academicYear b.academicYear).isLE)
    (h : sharedYear? l = none) : Ascending l := by
  induction l with
  | nil => exact .nil
  | cons a l ih =>
    obtain ⟨ha, hl⟩ := List.pairwise_cons.mp hs
    cases l with
    | nil => simp [Ascending]
    | cons b l =>
      simp only [sharedYear?] at h
      split at h
      · cases h
      · next hab =>
        have hasc : Ascending (b :: l) := ih hl h
        have hlt := compare_lt_of_isLE (ha b (by simp)) hab
        refine List.pairwise_cons.mpr ⟨fun c hc => ?_, hasc⟩
        rcases List.mem_cons.mp hc with rfl | hc
        · exact hlt
        · exact TransCmp.lt_trans hlt ((List.pairwise_cons.mp hasc).1 c hc)

/-- In a sorted list the first label that two neighbours share is the least shared one. -/
theorem leastShared_of_sharedYear?_eq_some {l : List Snapshot} {y : AcademicYear}
    (hs : l.Pairwise fun a b => (compare a.academicYear b.academicYear).isLE)
    (h : sharedYear? l = some y) : LeastShared y l := by
  induction l with
  | nil => cases h
  | cons a l ih =>
    obtain ⟨ha, hl⟩ := List.pairwise_cons.mp hs
    cases l with
    | nil => cases h
    | cons b l =>
      simp only [sharedYear?] at h
      split at h
      · next hab =>
        obtain rfl := Option.some.inj h
        -- the first label is shared by its neighbour, and no other lies below it
        refine ⟨by simp [← hab], fun z hz => ?_⟩
        have hmem : z ∈ (a :: b :: l).map academicYear := List.count_pos_iff.mp (by omega)
        obtain ⟨c, hc, rfl⟩ := List.mem_map.mp hmem
        rcases List.mem_cons.mp hc with rfl | hc
        · simp [ReflCmp.compare_self]
        · exact ha c hc
      · next hab =>
        obtain ⟨hshared, hleast⟩ := ih hl h
        -- the label of `a` lies below all others, so it is not shared
        have hnot : a.academicYear ∉ (b :: l).map academicYear := by
          intro hmem
          obtain ⟨c, hc, hca⟩ := List.mem_map.mp hmem
          have hbc : (compare b.academicYear c.academicYear).isLE := by
            rcases List.mem_cons.mp hc with rfl | hc
            · simp [ReflCmp.compare_self]
            · exact (List.pairwise_cons.mp hl).1 c hc
          rw [hca] at hbc
          exact hab (eq_of_isLE_of_isLE (ha b (by simp)) hbc)
        refine ⟨?_, fun z hz => hleast z ?_⟩
        · rw [List.map_cons, List.count_cons]
          omega
        · rw [List.map_cons, List.count_cons] at hz
          split at hz
          · next haz =>
            have hzero := List.count_eq_zero.mpr (beq_iff_eq.mp haz ▸ hnot)
            omega
          · exact hz

theorem LeastShared.not_distinct {l : List Snapshot} {y : AcademicYear} (h : LeastShared y l) :
    ¬ Distinct l := by
  intro hd
  have := List.nodup_iff_count.mp hd y
  have := h.shared
  omega

theorem sharedYear?_eq_none_iff {l : List Snapshot} : sharedYear? (walk l) = none ↔ Distinct l := by
  constructor
  · intro h
    exact (ascending_of_sharedYear?_eq_none (walk_sorted l) h).distinct.perm (walk_perm l)
  · intro hd
    cases h : sharedYear? (walk l) with
    | none => rfl
    | some y =>
      have hleast := leastShared_of_sharedYear?_eq_some (walk_sorted l) h
      exact absurd (hd.perm (walk_perm l).symm) hleast.not_distinct

theorem sharedYear?_eq_some_iff {l : List Snapshot} {y : AcademicYear} :
    sharedYear? (walk l) = some y ↔ LeastShared y l := by
  constructor
  · intro h
    exact (leastShared_of_sharedYear?_eq_some (walk_sorted l) h).perm (walk_perm l)
  · intro hy
    cases h : sharedYear? (walk l) with
    | none => exact absurd (sharedYear?_eq_none_iff.mp h) hy.not_distinct
    | some z =>
      have hz := (leastShared_of_sharedYear?_eq_some (walk_sorted l) h).perm (walk_perm l)
      have hzy := eq_of_isLE_of_isLE (hz.least y hy.shared) (hy.least z hz.shared)
      exact congrArg some hzy

/-- No label is shared, or one is the least shared one. -/
theorem distinct_or_leastShared (l : List Snapshot) : Distinct l ∨ ∃ y, LeastShared y l := by
  cases h : sharedYear? (walk l) with
  | none => exact .inl (sharedYear?_eq_none_iff.mp h)
  | some y => exact .inr ⟨y, sharedYear?_eq_some_iff.mp h⟩

theorem Distinct.walk_ascending {l : List Snapshot} (h : Distinct l) : Ascending (walk l) :=
  ascending_of_sharedYear?_eq_none (walk_sorted l) (sharedYear?_eq_none_iff.mpr h)

end Snapshot

/-! ### What reconciling comes to

The loop of the program with its state comes to the passes over the sorted snapshots
(`Gathered.foldl_visit`), and `Outcome.ofWalk` is written with these. Nothing after this point
speaks of the loop. -/

open Snapshot

/-- The outcome of snapshots that stand in the order of the walk. -/
def Outcome.ofWalk (e : RulesEquivalence) (walk : List Snapshot) : Outcome where
  modules := (walk.foldl Snapshot.observe ∅).values.map (Observation.merged e)
  academicYears := walk.map Snapshot.academicYear
  skipped := walk.flatMap Snapshot.skipped
  repeated := walk.flatMap Snapshot.repeated

theorem reconcile_of_distinct (e : RulesEquivalence) {l : List Snapshot} (h : Distinct l) :
    reconcile e l = .ok (.ofWalk e (walk l)) := by
  simp only [reconcile, sharedYear?_eq_none_iff.mpr h, Gathered.foldl_visit, List.nil_append]
  rfl

theorem reconcile_of_leastShared (e : RulesEquivalence) {l : List Snapshot} {y : AcademicYear}
    (h : LeastShared y l) : reconcile e l = .error (.sharedAcademicYear y) := by
  simp only [reconcile, sharedYear?_eq_some_iff.mpr h]

/-- Reconciling does not look at the order in which snapshots are given, whether it succeeds or
fails. -/
theorem reconcile_perm (e : RulesEquivalence) {l l' : List Snapshot} (h : l.Perm l') :
    reconcile e l = reconcile e l' := by
  rcases distinct_or_leastShared l with hd | ⟨y, hy⟩
  · rw [reconcile_of_distinct e hd, reconcile_of_distinct e (hd.perm h), hd.walk_eq_of_perm h]
  · rw [reconcile_of_leastShared e hy, reconcile_of_leastShared e (hy.perm h)]

end Prospectus
