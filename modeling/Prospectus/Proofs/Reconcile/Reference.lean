import Prospectus.Proofs.Reconcile.Fold

/-!
# What reconciling gives, said of the walk alone

`Outcome.AgreesWith` describes an outcome without the dictionary of observations that the walk
fills: one module per identity that was sighted, the fields of its last sighting, each content
section with its last body, and the years whose snapshot has the identity. The capstone is
`exists_walk_reconcile`: snapshots without a shared label have an ascending order, reconciling them
succeeds, and the outcome is the one described. The parts are

    sightings walk ──ofSightings, one identity at a time──▶ observations ──merged──▶ modules
-/

namespace Prospectus

open Std Snapshot

/-- An outcome that says what an ascending list of snapshots says, read as one long list of
sightings. The fields mention neither the dictionary of the walk nor its observations, so this is
what one would check an outcome against. -/
structure Outcome.AgreesWith (o : Outcome) (walk : List Snapshot) : Prop where
  identities_ascending : o.modules.Pairwise fun m n => compare m.identity n.identity = .lt
  /-- The modules are those that were sighted. -/
  identities : ∀ i, (∃ m ∈ o.modules, m.identity = i) ↔
    ∃ p ∈ sightings walk, p.record.identity = i
  /-- The last sighting gives every field but the content sections. -/
  record : ∀ m ∈ o.modules, ∃ p, (sightingsOf walk m.identity).getLast? = some p ∧
    m.record = { p.record with contentSections := m.record.contentSections }
  /-- A title has the body of the last sighting that has the title, if there is one. -/
  sections : ∀ m ∈ o.modules, ∀ title, m.record.contentSections.find? title =
    (sightingsOf walk m.identity).reverse.findSome? fun p => p.record.contentSections.find? title
  availableYears_ascending :
    ∀ m ∈ o.modules, m.availableYears.Pairwise fun y z => compare y z = .lt
  /-- A module runs in the years whose snapshot has its identity. -/
  mem_availableYears : ∀ m ∈ o.modules, ∀ y, y ∈ m.availableYears ↔
    ∃ s ∈ walk, s.academicYear = y ∧ ∃ r ∈ s.modules, r.identity = m.identity
  academicYears_ascending : o.academicYears.Pairwise fun y z => compare y z = .lt
  mem_academicYears : ∀ y, y ∈ o.academicYears ↔ ∃ s ∈ walk, s.academicYear = y

/-! ### The modules of a walk

Each field of a module is a function of the sightings of its identity, and sightings are records of
the snapshots. Both steps were taken before; here they are put together, and the lists of sightings
remain only where an order has to be said, as in `last` and `last that has the title`. -/

section

variable {e : RulesEquivalence} {walk : List Snapshot} {m : MergedModule}

theorem sightingsOf_ne_nil_iff {i : Identity} :
    sightingsOf walk i ≠ [] ↔ ∃ p ∈ sightings walk, p.record.identity = i := by
  simp [sightingsOf, List.filter_eq_nil_iff]

/-- A module of the outcome is what the sightings of its own identity add up to. -/
theorem sums_of_mem_modules (hm : m ∈ (Outcome.ofWalk e walk).modules) :
    sightingsOf walk m.identity ≠ [] ∧
      ∃ o : Observation, o.Sums (sightingsOf walk m.identity) ∧ m = o.merged e := by
  obtain ⟨i, o, hne, -, hs, rfl⟩ := mem_ofWalk_modules.mp hm
  have hi : (o.merged e).identity = i := hs.identity
  rw [hi]
  exact ⟨hne, o, hs, rfl⟩

theorem complete_of_mem_modules {walk : List Snapshot}
    (hm : m ∈ (Outcome.ofWalk e walk).modules) : m.identity.Complete := by
  obtain ⟨hne, -⟩ := sums_of_mem_modules hm
  obtain ⟨p, hp⟩ := List.exists_mem_of_ne_nil _ hne
  exact (mem_sightingsOf.mp hp).1

/-- Modules come by strictly ascending identity. -/
theorem modules_ascending (e : RulesEquivalence) (walk : List Snapshot) :
    (Outcome.ofWalk e walk).modules.Pairwise fun m n => compare m.identity n.identity = .lt := by
  simp only [Outcome.ofWalk, Dict.values, List.pairwise_map]
  refine List.Pairwise.imp_of_mem ?_ (walk.foldl Snapshot.observe ∅).ascending
  intro p q hp hq hpq
  -- each entry stands at the identity of its own observation
  have hkey : ∀ r ∈ (walk.foldl Snapshot.observe ∅).entries, (r.2.merged e).identity = r.1 := by
    intro r hr
    have hfind := Dict.mem_entries_iff.mp hr
    rw [Observation.find?_observed] at hfind
    have hne : sightingsOf walk r.1 ≠ [] := fun hnil => by rw [hnil] at hfind; cases hfind
    obtain ⟨o, ho, hs⟩ := Observation.exists_sums hne
    obtain rfl := Option.some.inj (ho.symm.trans hfind)
    exact hs.identity
  rw [hkey p hp, hkey q hq]
  exact hpq

/-- A module runs in a year exactly if the snapshot of that year has its identity. -/
theorem mem_availableYears_iff (hm : m ∈ (Outcome.ofWalk e walk).modules) {y : AcademicYear} :
    y ∈ m.availableYears ↔
      ∃ s ∈ walk, s.academicYear = y ∧ ∃ r ∈ s.modules, r.identity = m.identity := by
  obtain ⟨hne, o, hs, hmo⟩ := sums_of_mem_modules hm
  have hcomplete : m.identity.Complete := complete_of_mem_modules hm
  have hyears : m.availableYears = o.years := congrArg MergedModule.availableYears hmo
  rw [hyears, hs.mem_years]
  constructor
  · rintro ⟨p, hp, rfl⟩
    obtain ⟨-, s, hsw, hsy, hr, hi⟩ := mem_sightingsOf.mp hp
    exact ⟨s, hsw, hsy, p.record, hr, hi⟩
  · rintro ⟨s, hsw, rfl, r, hr, hi⟩
    exact ⟨⟨s.academicYear, r⟩, mem_sightingsOf.mpr ⟨hcomplete, s, hsw, rfl, hr, hi⟩, rfl⟩

end

/-- The outcome of an ascending walk agrees with the walk. -/
theorem ofWalk_agreesWith (e : RulesEquivalence) {walk : List Snapshot} (hw : Ascending walk) :
    (Outcome.ofWalk e walk).AgreesWith walk where
  identities_ascending := modules_ascending e walk
  identities i := by
    -- a module stands for an identity that is sighted, and sightings of an identity make a module
    rw [← sightingsOf_ne_nil_iff]
    constructor
    · rintro ⟨m, hm, rfl⟩
      exact (sums_of_mem_modules hm).1
    · intro hne
      obtain ⟨o, ho, hs⟩ := Observation.exists_sums hne
      exact ⟨o.merged e, mem_ofWalk_modules.mpr ⟨i, o, hne, ho, hs, rfl⟩, hs.identity⟩
  record m hm := by
    obtain ⟨-, o, hs, hmo⟩ := sums_of_mem_modules hm
    obtain ⟨p, hp, hr⟩ := hs.record
    have hrec : m.record = o.record := congrArg MergedModule.record hmo
    exact ⟨p, hp, hrec ▸ hr⟩
  sections m hm title := by
    obtain ⟨-, o, hs, hmo⟩ := sums_of_mem_modules hm
    have hrec : m.record = o.record := congrArg MergedModule.record hmo
    rw [hrec, hs.find?_sections]
  availableYears_ascending m hm := by
    obtain ⟨-, o, hs, hmo⟩ := sums_of_mem_modules hm
    have hyears : m.availableYears = o.years := congrArg MergedModule.availableYears hmo
    exact hyears ▸ hs.years_ascending hw
  mem_availableYears m hm y := mem_availableYears_iff hm
  academicYears_ascending := List.pairwise_map.mpr hw
  mem_academicYears y := by simp [Outcome.ofWalk]

/-- Snapshots without a shared label reconcile, and to just what their ascending order says. -/
theorem exists_walk_reconcile (e : RulesEquivalence) {snapshots : List Snapshot}
    (h : Distinct snapshots) :
    ∃ walk, walk.Perm snapshots ∧ Ascending walk ∧
      ∃ o, reconcile e snapshots = .ok o ∧ o.AgreesWith walk :=
  ⟨walk snapshots, walk_perm snapshots, h.walk_ascending, _, reconcile_of_distinct e h,
    ofWalk_agreesWith e h.walk_ascending⟩

theorem exists_walk_reconcile_repeated :
    let late : Snapshot :=
      ⟨"", ⟨"2026/7"⟩, "", none, [.blank "MTH1" "Year 1", .blank "MTH1" "Year 1"]⟩
    let early : Snapshot :=
      ⟨"", ⟨"2025/6"⟩, "", none, [.blank "MTH1" "Year 1", .blank "" "Year 1"]⟩
    Distinct [late, early] ∧
      ∃ walk, walk.Perm [late, early] ∧ Ascending walk ∧
        ∃ o, reconcile .canonical [late, early] = .ok o ∧ o.AgreesWith walk :=
  ⟨by decide, exists_walk_reconcile .canonical (by decide)⟩

end Prospectus
