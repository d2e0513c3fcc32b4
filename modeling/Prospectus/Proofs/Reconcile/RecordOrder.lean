import Prospectus.Proofs.Catalog.Presentation
import Prospectus.Proofs.Reconcile.Accounting

/-!
# The order of records in a snapshot

The records of a walk fall apart by identity, and what is made of one identity does not see the
records of another. So a snapshot may list its records in another order, as long as the records of
one identity follow each other as before (`Snapshot.Reordered`):

    sightings, one identity at a time ──▶ the same
    occurrences of each identity      ──▶ the same
    skipped records                   ──▶ the same, in another order under their label

`reconcile_reordered` puts this together for any number of snapshots. Records of one identity may
not change places: the last of them gives the module its fields.
-/

namespace Prospectus

open Std Snapshot

/-- The second snapshot lists the records of the first in another order, in which the records of
each identity keep theirs. Records of different identities may change places freely. -/
structure Snapshot.Reordered (d d' : Snapshot) : Prop where
  year : d.academicYear = d'.academicYear
  perm : d.modules.Perm d'.modules
  kept : ∀ i, (d.modules.filter fun r => r.identity = i) =
    d'.modules.filter fun r => r.identity = i

/-- Only the identities that the snapshot has need to be looked at. -/
theorem Snapshot.reordered_iff {d d' : Snapshot} : d.Reordered d' ↔
    d.academicYear = d'.academicYear ∧ d.modules.Perm d'.modules ∧
      ∀ s ∈ d.modules, (d.modules.filter fun r => r.identity = s.identity) =
        d'.modules.filter fun r => r.identity = s.identity := by
  constructor
  · intro h
    exact ⟨h.year, h.perm, fun s _ => h.kept s.identity⟩
  · rintro ⟨hyear, hperm, hkept⟩
    refine ⟨hyear, hperm, fun i => ?_⟩
    -- identities that do not occur are kept trivially: no record on either side has one
    by_cases hi : ∃ s ∈ d.modules, s.identity = i
    · obtain ⟨s, hs, rfl⟩ := hi
      exact hkept s hs
    · have hnone : ∀ r ∈ d.modules, ¬ r.identity = i := fun r hr hri => hi ⟨r, hr, hri⟩
      have hnone' : ∀ r ∈ d'.modules, ¬ r.identity = i := fun r hr => hnone r (hperm.mem_iff.mpr hr)
      rw [List.filter_eq_nil_iff.mpr (by simpa using hnone),
        List.filter_eq_nil_iff.mpr (by simpa using hnone')]

instance (d d' : Snapshot) : Decidable (d.Reordered d') := decidable_of_iff _ reordered_iff.symm

/-- What is reported of a skipped record apart from its place. -/
def SkippedRecord.unplaced (k : SkippedRecord) : AcademicYear × Identity × SkipReason :=
  (k.academicYear, k.identity, k.reason)

/-- Outcomes that differ at most in the places of skipped records and in their order under one
label. Everything else is equal, the rules of each year included. -/
structure Outcome.AgreesUpToPlaces (o o' : Outcome) : Prop where
  modules : o.modules = o'.modules
  academicYears : o.academicYears = o'.academicYears
  repeated : o.repeated = o'.repeated
  skipped : (o.skipped.map SkippedRecord.unplaced).Perm (o'.skipped.map SkippedRecord.unplaced)
  skipped_years : o.skipped.map SkippedRecord.academicYear =
    o'.skipped.map SkippedRecord.academicYear

/-! ### One snapshot

Three things are read off a snapshot, and each is the same after reordering: the sightings of each
identity, the number of records of each identity, and the skipped records up to their places. The
last of these are a permutation only, since records without an identity may change places too. -/

theorem Snapshot.map_unplaced_skipped (d : Snapshot) :
    d.skipped.map SkippedRecord.unplaced = d.modules.filterMap fun r =>
      r.identity.skipReason?.map fun reason => (d.academicYear, r.identity, reason) := by
  have hrecords : d.modules.zipIdx.map Prod.fst = d.modules := List.zipIdx_map_fst 0 d.modules
  rw [← hrecords]
  rw [skipped, List.map_filterMap, List.filterMap_map]
  apply List.filterMap_congr
  intro p _
  rw [Option.map_map]
  rfl

theorem Snapshot.map_academicYear_skipped (d : Snapshot) :
    d.skipped.map SkippedRecord.academicYear = List.replicate d.skipped.length d.academicYear := by
  rw [List.eq_replicate_iff, List.length_map]
  refine ⟨rfl, fun y hy => ?_⟩
  obtain ⟨k, hk, rfl⟩ := List.mem_map.mp hy
  exact (mem_skipped_iff.mp hk).year

namespace Snapshot.Reordered

variable {d d' : Snapshot}

theorem filter_keyed (h : d.Reordered d') (i : Identity) :
    (d.keyed.filter fun r => r.identity = i) = d'.keyed.filter fun r => r.identity = i := by
  rw [keyed, keyed, List.filter_comm, h.kept, List.filter_comm]

theorem sightingsOf_singleton (h : d.Reordered d') (i : Identity) :
    sightingsOf [d] i = sightingsOf [d'] i := by
  have hfilter : ∀ c : Snapshot, sightingsOf [c] i =
      (c.keyed.filter fun r => r.identity = i).map fun r => ⟨c.academicYear, r⟩ := by
    intro c
    simp only [sightingsOf, sightings, List.flatMap_singleton, List.filter_map]
    rfl
  rw [hfilter, hfilter, h.filter_keyed, h.year]

theorem repeated_eq (h : d.Reordered d') : d.repeated = d'.repeated := by
  have hoccurrences : d.occurrences = d'.occurrences := by
    apply Dict.ext_find?
    intro i
    simp only [occurrences, Dict.find?_foldl_count, h.filter_keyed]
  rw [repeated, repeated, hoccurrences, h.year]

theorem skipped_perm (h : d.Reordered d') :
    (d.skipped.map SkippedRecord.unplaced).Perm (d'.skipped.map SkippedRecord.unplaced) := by
  rw [map_unplaced_skipped, map_unplaced_skipped, h.year]
  exact h.perm.filterMap _

theorem skipped_years (h : d.Reordered d') :
    d.skipped.map SkippedRecord.academicYear = d'.skipped.map SkippedRecord.academicYear := by
  have hlength := h.skipped_perm.length_eq
  rw [List.length_map, List.length_map] at hlength
  rw [map_academicYear_skipped, map_academicYear_skipped, hlength, h.year]

end Snapshot.Reordered

/-! ### A walk

What holds of one snapshot holds of each snapshot of the walk, and the walk goes by labels, which
reordering records does not touch. -/

section

variable {walk walk' : List Snapshot}

theorem sightingsOf_reordered (h : List.Forall₂ Reordered walk walk') (i : Identity) :
    sightingsOf walk i = sightingsOf walk' i := by
  induction h with
  | nil => rfl
  | @cons d d' walk walk' hd _ ih =>
    rw [← List.singleton_append, sightingsOf_append, hd.sightingsOf_singleton, ih,
      ← sightingsOf_append]
    rfl

/-- What the walk finds of an identity hangs on the sightings of that identity alone, so two walks
with the same sightings for each identity find the same. -/
theorem observed_reordered (h : List.Forall₂ Reordered walk walk') :
    walk.foldl Snapshot.observe ∅ = walk'.foldl Snapshot.observe ∅ := by
  apply Dict.ext_find?
  intro i
  rw [Observation.find?_observed, Observation.find?_observed, sightingsOf_reordered h]

theorem skipped_reordered (h : List.Forall₂ Reordered walk walk') :
    ((walk.flatMap Snapshot.skipped).map SkippedRecord.unplaced).Perm
      ((walk'.flatMap Snapshot.skipped).map SkippedRecord.unplaced) := by
  induction h with
  | nil => exact .nil
  | cons hd _ ih =>
    rw [List.flatMap_cons, List.flatMap_cons, List.map_append, List.map_append]
    exact hd.skipped_perm.append ih

theorem ofWalk_reordered (e : RulesEquivalence) (h : List.Forall₂ Reordered walk walk') :
    (Outcome.ofWalk e walk).AgreesUpToPlaces (.ofWalk e walk') where
  modules := by
    simp only [Outcome.ofWalk, observed_reordered h]
  academicYears := map_eq_of_forall₂ (fun _ _ hd => hd.year) h
  repeated := congrArg List.flatten (map_eq_of_forall₂ (fun _ _ hd => hd.repeated_eq) h)
  skipped := skipped_reordered h
  skipped_years := by
    simp only [Outcome.ofWalk, List.map_flatMap]
    exact congrArg List.flatten (map_eq_of_forall₂ (fun _ _ hd => hd.skipped_years) h)

end

/-- Snapshots without a shared label, each with its records in another order, reconcile to the same
modules, labels and repeated identities, and to the same skipped records in other places. The
catalogue of the outcome is the same, or it fails for the same module. -/
theorem reconcile_reordered (e : RulesEquivalence) {snapshots others : List Snapshot}
    (hd : Distinct snapshots) (h : List.Forall₂ Reordered snapshots others) :
    ∃ o o', reconcile e snapshots = .ok o ∧ reconcile e others = .ok o' ∧ o.AgreesUpToPlaces o' ∧
      ∀ course school, Catalog.build course school o = Catalog.build course school o' := by
  have hd' : Distinct others := by
    rwa [Distinct, ← map_eq_of_forall₂ (fun _ _ hd => hd.year) h]
  have hagree := ofWalk_reordered e (forall₂_walk (fun _ _ hd => hd.year) h)
  refine ⟨_, _, reconcile_of_distinct e hd, reconcile_of_distinct e hd', hagree, ?_⟩
  intro course school
  rw [Catalog.build, Catalog.build, hagree.modules, hagree.academicYears]

/-- A repeated module and two records without a full identity, in two orders. -/
theorem reconcile_reordered_shuffled :
    let first := Record.blank "MTH1" "Year 1"
    let second : Record := { first with credits := "20" }
    let other := Record.blank "MTH2" "Year 2"
    let late (modules : List Record) : Snapshot := ⟨"", ⟨"2026/7"⟩, "", none, modules⟩
    let early (modules : List Record) : Snapshot := ⟨"", ⟨"2025/6"⟩, "", none, modules⟩
    let snapshots := [late [other, first],
      early [.blank "" "Year 1", first, other, .blank "MTH3" " ", second]]
    let others := [late [first, other],
      early [.blank "MTH3" " ", first, second, .blank "" "Year 1", other]]
    Distinct snapshots ∧ List.Forall₂ Reordered snapshots others ∧
      ∃ o o', reconcile .canonical snapshots = .ok o ∧ reconcile .canonical others = .ok o' ∧
        o.AgreesUpToPlaces o' ∧
        ∀ course school, Catalog.build course school o = Catalog.build course school o' := by
  intro first second other late early snapshots others
  have hd : Distinct snapshots := by decide
  have h : List.Forall₂ Reordered snapshots others := .cons (by decide) (.cons (by decide) .nil)
  exact ⟨hd, h, reconcile_reordered .canonical hd h⟩

/-- Records of one identity may not change places. -/
example :
    let first := Record.blank "MTH1" "Year 1"
    let second : Record := { first with credits := "20" }
    let capture (modules : List Record) : Snapshot := ⟨"", ⟨"2025/6"⟩, "", none, modules⟩
    Snapshot.observe ∅ (capture [first, second]) ≠
      Snapshot.observe ∅ (capture [second, first]) := by
  decide +kernel

end Prospectus
