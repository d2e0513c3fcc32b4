import Prospectus.Proofs.Catalog.Presentation
import Prospectus.Proofs.Reconcile.Reference

/-! # Where a built catalogue comes from

If captures reconcile and their outcome makes a catalogue, no two of the captures share a label,
and the modules of the catalogue are those of the ascending walk in another order
(`Catalog.exists_walk_of_build`). Captures that stand in order already, with their modules, make
the catalogue of just these modules (`Catalog.build_of_ascending`).

Theorems about catalogues start from here. They are told how a catalogue came about, and need the
walk: what accumulates along a walk is known, and a catalogue has no memory of it other than its
modules. The second statement goes the other way, and is what the examples are built with. -/

namespace Prospectus

open Snapshot

/-- Reconciling goes along the ascending walk, and it does so only if no label is repeated. -/
theorem distinct_of_reconcile {e : RulesEquivalence} {snapshots : List Snapshot} {o : Outcome}
    (h : reconcile e snapshots = .ok o) :
    Distinct snapshots ∧ o = .ofWalk e (walk snapshots) := by
  rcases distinct_or_leastShared snapshots with hd | ⟨y, hy⟩
  · rw [reconcile_of_distinct e hd] at h
    exact ⟨hd, (Except.ok.inj h).symm⟩
  · rw [reconcile_of_leastShared e hy] at h
    cases h

/-- The catalogue of reconciled captures has the modules and the years of their walk. -/
theorem Catalog.exists_walk_of_build {e : RulesEquivalence} {snapshots : List Snapshot}
    {o : Outcome} {course school : String} {c : Catalog} (hr : reconcile e snapshots = .ok o)
    (hb : Catalog.build course school o = .ok c) :
    ∃ walk, walk.Perm snapshots ∧ Ascending walk ∧
      c.modules.Perm (Outcome.ofWalk e walk).modules ∧ c.academicYears = walk.map academicYear := by
  obtain ⟨hd, rfl⟩ := distinct_of_reconcile hr
  obtain ⟨modules, hmodules, hb⟩ := bind_eq_ok_iff.mp hb
  cases hb
  exact ⟨walk snapshots, walk_perm snapshots, hd.walk_ascending, (present_spec hmodules).1, rfl⟩

/-! ### Captures in order

Sorting leaves a list alone that is sorted, so captures in order are their own walk, and modules in
order their own presentation. -/

/-- Captures that ascend are walked as they are given. -/
theorem Snapshot.Ascending.walk_eq {l : List Snapshot} (h : Ascending l) : walk l = l := by
  refine List.mergeSort_of_pairwise (h.imp fun {a b} hlt => ?_)
  rw [hlt]
  rfl

/-- If captures and their modules stand in order, nothing is moved on the way to the catalogue. -/
theorem Catalog.build_of_ascending {e : RulesEquivalence} {snapshots : List Snapshot} {c : Catalog}
    (h : Ascending snapshots) (hyears : snapshots.map academicYear = c.academicYears)
    (hmodules : (Outcome.ofWalk e snapshots).modules = c.modules)
    (hkeys : ∀ m ∈ c.modules, m.HasKey) (horder : c.modules.Pairwise MergedModule.Precedes) :
    ∃ o, reconcile e snapshots = .ok o ∧ Catalog.build c.course c.school o = .ok c := by
  refine ⟨.ofWalk e snapshots, ?_, ?_⟩
  · rw [reconcile_of_distinct e h.distinct, h.walk_eq]
  · rw [Catalog.build, hmodules, present_eq_self hkeys horder]
    show Except.ok (⟨c.course, c.school, snapshots.map academicYear, c.modules⟩ : Catalog) = _
    rw [hyears]

end Prospectus
