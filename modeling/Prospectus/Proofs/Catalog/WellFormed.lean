import Prospectus.Proofs.Catalog.Built

/-!
# Well-formed catalogues

A catalogue is well-formed if its identities are distinct, its years were captured, the rules that
it keeps by year differ, and its modules stand in presentation order. A catalogue that is built from
captures is (`wellFormed_build`): the first three conditions come from the outcome of reconciling,
the order from putting its modules in order.
-/

namespace Prospectus

open Std

/-- If rules are kept by year, two of them are not the same after `f`. With the identity for `f`
this is said of the rules as they are, and with a scrubber of the rules after cleaning. -/
def MergedModule.RulesDiffer (f : Json.Value → Json.Value) (m : MergedModule) : Prop :=
  ∀ rules ∈ m.rulesByYear, ∃ v ∈ rules.values, ∃ w ∈ rules.values,
    ¬ RulesEquivalence.canonical.Same (f v) (f w)

instance (f : Json.Value → Json.Value) (m : MergedModule) : Decidable (m.RulesDiffer f) :=
  inferInstanceAs (Decidable (∀ rules ∈ m.rulesByYear, _))

namespace Catalog

/-- No two modules have one identity. -/
def DistinctIdentities (c : Catalog) : Prop := (c.modules.map MergedModule.identity).Nodup

/-- Every module runs in some academic years, each listed once and one of the catalogue. A module
that runs in no year would have come from no record. -/
def YearsCaptured (c : Catalog) : Prop :=
  ∀ m ∈ c.modules, m.availableYears ≠ [] ∧ m.availableYears.Nodup ∧
    ∀ y ∈ m.availableYears, y ∈ c.academicYears

/-- Every module has a sort key, and the keys ascend strictly. So no two modules have one key, and
the order of the modules is determined by which modules there are. -/
def InOrder (c : Catalog) : Prop :=
  (∀ m ∈ c.modules, m.HasKey) ∧ c.modules.Pairwise MergedModule.Precedes

/-- What holds of a catalogue that was just built. The fields are conditions on the catalogue alone,
so they can be decided without the captures that it was built from. -/
structure WellFormed (c : Catalog) : Prop where
  identities : c.DistinctIdentities
  years : c.YearsCaptured
  rules : ∀ m ∈ c.modules, m.RulesDiffer id
  order : c.InOrder

instance (c : Catalog) : Decidable c.DistinctIdentities :=
  inferInstanceAs (Decidable (List.Nodup _))

instance (c : Catalog) : Decidable c.YearsCaptured :=
  inferInstanceAs (Decidable (∀ m ∈ c.modules, _))

instance (c : Catalog) : Decidable c.InOrder := inferInstanceAs (Decidable (_ ∧ _))

/-- The four conditions, as a conjunction that can be decided. -/
theorem wellFormed_iff {c : Catalog} : c.WellFormed ↔ c.DistinctIdentities ∧ c.YearsCaptured ∧
    (∀ m ∈ c.modules, m.RulesDiffer id) ∧ c.InOrder :=
  ⟨fun h => ⟨h.identities, h.years, h.rules, h.order⟩, fun ⟨hi, hy, hr, ho⟩ => ⟨hi, hy, hr, ho⟩⟩

instance (c : Catalog) : Decidable c.WellFormed := decidable_of_iff _ wellFormed_iff.symm

end Catalog

/-! ### Built catalogues

The outcome of reconciling is known from the walk, and the catalogue has its modules in
presentation order. Identities are distinct as the outcome has one module for each; then keys are
distinct too, and ascending keys ascend strictly. Three of the four conditions hold under any
equivalence of rules. That two of the kept values differ is said of the canonical one, which is the
one that rebuilding uses. -/

namespace Outcome

variable {o : Outcome} {walk : List Snapshot}

/-- An outcome has one module for each identity. -/
theorem AgreesWith.identities_nodup (h : o.AgreesWith walk) :
    (o.modules.map MergedModule.identity).Nodup :=
  nodup_of_ascending (List.pairwise_map.mpr h.identities_ascending)

/-- A module of an outcome runs in a year of the outcome, and in no year twice. -/
theorem AgreesWith.years (h : o.AgreesWith walk) {m : MergedModule} (hm : m ∈ o.modules) :
    m.availableYears ≠ [] ∧ m.availableYears.Nodup ∧
      ∀ y ∈ m.availableYears, y ∈ o.academicYears := by
  refine ⟨?_, ?_, fun y hy => ?_⟩
  · -- the last sighting of the module is in one of its years
    obtain ⟨p, hp, -⟩ := h.record m hm
    obtain ⟨hp, hi⟩ := List.mem_filter.mp (List.mem_of_getLast? hp)
    obtain ⟨s, hs, hy, hr, -⟩ := mem_sightings.mp hp
    have hyear : p.year ∈ m.availableYears :=
      (h.mem_availableYears m hm p.year).mpr ⟨s, hs, hy, p.record, hr, of_decide_eq_true hi⟩
    exact List.ne_nil_of_mem hyear
  · exact nodup_of_ascending (h.availableYears_ascending m hm)
  · obtain ⟨s, hs, hy, -⟩ := (h.mem_availableYears m hm y).mp hy
    exact (h.mem_academicYears y).mpr ⟨s, hs, hy⟩

/-- Rules are kept by year only if two of them differ. The values that are kept are all that were
compared. -/
theorem rulesDiffer_of_mem {m : MergedModule} (hm : m ∈ (ofWalk .canonical walk).modules) :
    m.RulesDiffer id := by
  obtain ⟨i, obs, -, -, -, rfl⟩ := mem_ofWalk_modules.mp hm
  intro rules hrules
  obtain ⟨hd, rfl⟩ := Observation.mem_rulesByYear_iff.mp hrules
  exact RulesEquivalence.differ_iff.mp hd

end Outcome

namespace Catalog

/-- Under every equivalence of rules, a catalogue that is built from reconciled captures has the
years of their outcome, and the modules of the outcome in order. -/
theorem ordered_build {e : RulesEquivalence} {snapshots : List Snapshot} {o : Outcome}
    {course school : String} {c : Catalog} (hr : reconcile e snapshots = .ok o)
    (hb : Catalog.build course school o = .ok c) :
    c.academicYears = o.academicYears ∧ c.modules.Perm o.modules ∧ c.DistinctIdentities ∧
      c.YearsCaptured ∧ c.InOrder := by
  obtain ⟨hd, rfl⟩ := distinct_of_reconcile hr
  have hagree := ofWalk_agreesWith e hd.walk_ascending
  obtain ⟨modules, hmodules, hb⟩ := bind_eq_ok_iff.mp hb
  cases hb
  obtain ⟨hperm, hkeys, -⟩ := present_spec hmodules
  refine ⟨rfl, hperm, ?_, fun m hm => hagree.years (hperm.mem_iff.mp hm), hkeys, ?_⟩
  · exact (hperm.map _).nodup_iff.mpr hagree.identities_nodup
  · exact present_ascending hmodules hagree.identities_nodup

/-- A catalogue that is built from reconciled captures is well-formed. -/
theorem wellFormed_build {snapshots : List Snapshot} {o : Outcome} {course school : String}
    {c : Catalog} (hr : reconcile .canonical snapshots = .ok o)
    (hb : Catalog.build course school o = .ok c) : c.WellFormed := by
  obtain ⟨-, hperm, hidentities, hyears, horder⟩ := ordered_build hr hb
  obtain ⟨-, rfl⟩ := distinct_of_reconcile hr
  exact ⟨hidentities, hyears, fun m hm => Outcome.rulesDiffer_of_mem (hperm.mem_iff.mp hm), horder⟩

end Catalog

end Prospectus
