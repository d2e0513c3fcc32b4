import Prospectus.Proofs.Catalog.WellFormed
import Prospectus.Proofs.Rebuild.Cleaning

/-!
# What a rebuilt catalogue covers

A catalogue covers captures if it has one module for each complete identity that occurs in them and
no other module, and if each module runs in just the years whose capture has its identity
(`Catalog.Covers`). A built catalogue covers the snapshots that it was made from. Scrubbing keeps
the identity of every record, so the catalogue of a rebuild covers the captures as they were before
(`covers_captures`).
-/

namespace Prospectus

open Std Scrub Snapshot

/-- An identity occurs in captures if it is complete and some record has it. Where the record stands
makes no difference, nor how often the identity is repeated. -/
def Identity.OccursIn (i : Identity) (captures : List Snapshot) : Prop :=
  i.Complete ∧ ∃ d ∈ captures, ∃ r ∈ d.modules, r.identity = i

/-- The catalogue says of captures which modules there are and in which years they run. Both are
read off the captures directly, in their raw form. -/
structure Catalog.Covers (c : Catalog) (captures : List Snapshot) : Prop where
  identities_nodup : (c.modules.map MergedModule.identity).Nodup
  mem_identities : ∀ i, i ∈ c.modules.map MergedModule.identity ↔ i.OccursIn captures
  availableYears : ∀ m ∈ c.modules, m.availableYears = yearsContaining captures m.identity

/-! ### The years of an identity

What the captures say of an identity: the labels of all that have a record of it, ascending and
without repeats. This is a definition by the captures alone, and makes no use of the walk. -/

theorem yearsContaining_ascending (captures : List Snapshot) (i : Identity) :
    (yearsContaining captures i).Pairwise fun y z => compare y z = .lt :=
  Dict.keys_ascending _

theorem mem_yearsContaining {captures : List Snapshot} {i : Identity} {y : AcademicYear} :
    y ∈ yearsContaining captures i ↔
      ∃ d ∈ captures, d.academicYear = y ∧ ∃ r ∈ d.modules, r.identity = i := by
  have hempty : y ∉ (∅ : Dict AcademicYear Unit).keys := List.not_mem_nil
  apply Dict.mem_keys_insertAll.trans
  simp only [hempty, false_or, List.mem_map, List.mem_filter, List.any_eq_true, beq_iff_eq]
  constructor
  · rintro ⟨-, ⟨d, ⟨hd, hr⟩, rfl⟩, rfl⟩
    exact ⟨d, hd, rfl, hr⟩
  · rintro ⟨d, hd, rfl, hr⟩
    exact ⟨_, ⟨d, ⟨hd, hr⟩, rfl⟩, rfl⟩

/-! ### Built catalogues

A module is sighted in the snapshots that have its identity. As the years of a module ascend too,
it is enough to compare which labels are in the two lists. -/

/-- What is sighted on a walk are the identities that occur in its snapshots. -/
theorem exists_sighting_iff {walk : List Snapshot} {i : Identity} :
    (∃ p ∈ sightings walk, p.record.identity = i) ↔ i.OccursIn walk := by
  constructor
  · rintro ⟨p, hp, rfl⟩
    obtain ⟨d, hd, -, hr, hcomplete⟩ := mem_sightings.mp hp
    exact ⟨hcomplete, d, hd, p.record, hr, rfl⟩
  · rintro ⟨hcomplete, d, hd, r, hr, rfl⟩
    exact ⟨⟨d.academicYear, r⟩, mem_sightings.mpr ⟨d, hd, rfl, hr, hcomplete⟩, rfl⟩

theorem Catalog.covers_of_build {e : RulesEquivalence} {snapshots : List Snapshot} {o : Outcome}
    {course school : String} {c : Catalog} (hr : reconcile e snapshots = .ok o)
    (hb : Catalog.build course school o = .ok c) : c.Covers snapshots := by
  obtain ⟨walk, hwalk, hascending, hmodules, -⟩ := Catalog.exists_walk_of_build hr hb
  have hagrees := ofWalk_agreesWith e hascending
  constructor
  · -- one module for each identity, as the walk has it; presenting the modules only reorders them
    exact (hmodules.map _).nodup_iff.mpr hagrees.identities_nodup
  · -- an identity has a module if some snapshot has a record of it
    intro i
    rw [(hmodules.map _).mem_iff, List.mem_map, hagrees.identities i, exists_sighting_iff]
    simp only [Identity.OccursIn, hwalk.mem_iff]
  · -- both lists of years ascend, so equal members are enough
    intro m hm
    have hm := hmodules.mem_iff.mp hm
    apply eq_of_ascending (hagrees.availableYears_ascending m hm) (yearsContaining_ascending _ _)
    intro y
    rw [hagrees.mem_availableYears m hm, mem_yearsContaining]
    simp only [hwalk.mem_iff]

/-! ### Scrubbed captures

The two parts of an identity are no fields that are scrubbed, even where a rule would find something
in them. So the same identities occur in the same captures before and after. -/

namespace Scrub.Scrubber

@[simp] theorem identity_scrubRecord (s : Scrubber) (r : Record) :
    (s.scrubRecord r).identity = r.identity := rfl

/-- Scrubbing captures changes neither which identities occur nor in which years. The condition on
the year is left open, as the two uses of the lemma ask for different ones. -/
theorem exists_scrubbed_iff (s : Scrubber) (captures : List Snapshot) (i : Identity)
    (p : AcademicYear → Prop) :
    (∃ d ∈ captures.map s.scrubSnapshot, p d.academicYear ∧ ∃ r ∈ d.modules, r.identity = i) ↔
      ∃ d ∈ captures, p d.academicYear ∧ ∃ r ∈ d.modules, r.identity = i := by
  simp [scrubSnapshot]

theorem occursIn_map_scrubSnapshot (s : Scrubber) {captures : List Snapshot} {i : Identity} :
    i.OccursIn (captures.map s.scrubSnapshot) ↔ i.OccursIn captures := by
  have h := s.exists_scrubbed_iff captures i fun _ => True
  simp only [true_and] at h
  simp only [Identity.OccursIn, h]

theorem yearsContaining_map_scrubSnapshot (s : Scrubber) (captures : List Snapshot) (i : Identity) :
    yearsContaining (captures.map s.scrubSnapshot) i = yearsContaining captures i := by
  apply eq_of_ascending (yearsContaining_ascending _ _) (yearsContaining_ascending _ _)
  intro y
  rw [mem_yearsContaining, mem_yearsContaining]
  exact s.exists_scrubbed_iff captures i (· = y)

end Scrub.Scrubber

/-- A catalogue that is put together from scrubbed captures covers the captures as they were before,
and it has the modules of the outcome, each once. -/
theorem Scrub.Scrubber.covers_of_assemble {s : Scrubber} {course school : String}
    {captures : List Snapshot} {c : Catalog} {o : Outcome}
    (h : assemble course school (captures.map s.scrubSnapshot) = .ok (c, o)) :
    c.Covers captures ∧ c.modules.Perm o.modules := by
  obtain ⟨hr, hb⟩ := assemble_eq_ok_iff.mp h
  have hcovers := Catalog.covers_of_build hr hb
  refine ⟨⟨hcovers.identities_nodup, fun i => ?_, fun m hm => ?_⟩, ?_⟩
  · rw [hcovers.mem_identities i, s.occursIn_map_scrubSnapshot]
  · rw [hcovers.availableYears m hm, s.yearsContaining_map_scrubSnapshot]
  · obtain ⟨presented, hpresented, hb⟩ := bind_eq_ok_iff.mp hb
    cases hb
    exact (present_spec hpresented).1

/-- The catalogue of a rebuild covers the captures that went in, whatever was scrubbed from them,
and it has the modules of the outcome, each once. -/
theorem covers_captures [Pattern.Dialect] {course school : String} {rules : Rules}
    {captures : List Snapshot} {c : Catalog} {o : Outcome}
    (h : runPipeline course school rules captures = .ok (c, o)) :
    c.Covers captures ∧ c.modules.Perm o.modules := by
  obtain ⟨s, -, hassemble⟩ := runPipeline_eq_ok_iff.mp h
  exact Scrubber.covers_of_assemble hassemble

/-- Captures out of order. A person has the code of one module and stands in the notes of another,
one identity is repeated in a capture, and one is not complete. -/
def scatteredCaptures : List Snapshot :=
  [⟨"", ⟨"2026/7"⟩, "", none,
      [.blank "MTH1" "Year 2", .blank "Ann" "Year 1",
        { Record.blank "MTH1" "Year 2" with notes := "Ann" }]⟩,
    ⟨"", ⟨"2025/6"⟩, "", none, [.blank "MTH1" "Year 2", .blank " " "Year 1"]⟩]

def scatteredCatalog : Catalog :=
  ⟨"", "", [⟨"2025/6"⟩, ⟨"2026/7"⟩],
    [⟨.blank "Ann" "Year 1", [⟨"2026/7"⟩], none⟩,
      ⟨.blank "MTH1" "Year 2", [⟨"2025/6"⟩, ⟨"2026/7"⟩], none⟩]⟩

theorem runPipeline_scatteredCaptures :
    ∃ o, runPipeline "" "" ⟨["Ann"], []⟩ scatteredCaptures = .ok (scatteredCatalog, o) := by
  let s : Scrubber := ⟨["Ann".toList], []⟩
  have hs : Scrubber.ofRules ⟨["Ann"], []⟩ = .ok s := by decide
  have hmodules : (Outcome.ofWalk .canonical
      (scatteredCaptures.reverse.map s.scrubSnapshot)).modules = scatteredCatalog.modules := by
    decide +kernel
  obtain ⟨o, hr, hb⟩ := Catalog.build_of_ascending (by decide) rfl hmodules (by decide) (by decide)
  rw [reconcile_perm _ (scatteredCaptures.reverse_perm.map s.scrubSnapshot)] at hr
  exact ⟨o, runPipeline_eq_ok_iff.mpr ⟨s, hs, assemble_eq_ok_iff.mpr ⟨hr, hb⟩⟩⟩

theorem covers_captures_scattered :
    ∃ o, runPipeline "" "" ⟨["Ann"], []⟩ scatteredCaptures = .ok (scatteredCatalog, o) ∧
      scatteredCatalog.Covers scatteredCaptures ∧ scatteredCatalog.modules.Perm o.modules := by
  obtain ⟨o, h⟩ := runPipeline_scatteredCaptures
  exact ⟨o, h, covers_captures h⟩

end Prospectus
