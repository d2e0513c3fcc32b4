import Prospectus.Proofs.Catalog.Built
import Prospectus.Proofs.Scrub.Record
import Prospectus.Rebuild.Pipeline

/-!
# Scrubbing before and after a rebuild

What a merged module holds was taken from one of the records that were sighted: the fields of the
last one, each content section from the last that has it, the rules of each year from the last of
that year. So if the scrubber finds nothing in the records, it finds nothing in the merged module
(`Observation.Sums.scrubbed_merged`). The catalogue of scrubbed captures therefore needs no
cleaning with the rules that it was made under, and scrubbing the captures beforehand makes no
difference (`scrubbed_rebuild`).
-/

namespace Prospectus

open Std Scrub Snapshot

/-! ### From records to merged modules

A merged module has nothing in it that was not in a record. For the fields and the rules that is the
invariant of the walk; for the content sections it says from which record each body came. So title
and body stand together in one scrubbed record, where neither of them was a reason to drop the
section, and the scrubber looks at nothing else to decide that. -/

/-- If the scrubber finds nothing in the records of some sightings, it finds nothing in what they
add up to. Each part of a merged module is a part of one of the records. -/
theorem Observation.Sums.scrubbed_merged {o : Observation} {ps : List Sighting} {s : Scrubber}
    (h : o.Sums ps) (e : RulesEquivalence) (hps : ∀ p ∈ ps, p.record.Scrubbed s) :
    (o.merged e).Scrubbed s := by
  obtain ⟨last, hlast, hrecord⟩ := h.record
  have hclean := hps last (List.mem_of_getLast? hlast)
  constructor
  · -- all fields but the sections are those of the last record
    show o.record.Scrubbed s
    have hsections : ∀ title body, o.record.contentSections.find? title = some body →
        ∃ p ∈ ps, p.record.contentSections.find? title = some body := by
      intro title body hbody
      rw [h.find?_sections] at hbody
      obtain ⟨p, hp, hfind⟩ := List.exists_of_findSome?_eq_some hbody
      exact ⟨p, List.mem_reverse.mp hp, hfind⟩
    rw [hrecord]
    refine ⟨hclean.texts, hclean.tableInfo, hclean.moduleRules, ?_, hclean.extra⟩
    intro title body hbody
    obtain ⟨p, hp, hfind⟩ := hsections title body hbody
    exact (hps p hp).sections title body hfind
  · -- rules by year are those of sightings, each of them scrubbed
    intro rules hrules y v hv
    obtain ⟨p, hp, rfl⟩ := h.exists_of_mem_rulesByYear hrules hv
    exact (hps p hp).moduleRules

/-- The scrubber finds nothing in the modules that scrubbed captures come to. -/
theorem scrubbed_of_mem_modules {e : RulesEquivalence} {s : Scrubber}
    {walk snapshots : List Snapshot} (hwalk : walk.Perm (snapshots.map s.scrubSnapshot))
    {m : MergedModule} (hm : m ∈ (Outcome.ofWalk e walk).modules) : m.Scrubbed s := by
  obtain ⟨-, o, hsums, rfl⟩ := sums_of_mem_modules hm
  refine hsums.scrubbed_merged e fun p hp => ?_
  -- each sighting is of a record that was scrubbed
  obtain ⟨d, hd, -, hr, -⟩ := mem_sightings.mp (List.mem_of_mem_filter hp)
  obtain ⟨raw, -, rfl⟩ := List.mem_map.mp (hwalk.mem_iff.mp hd)
  obtain ⟨r, -, hr⟩ := List.mem_map.mp hr
  exact hr ▸ s.scrubbed_scrubRecord r

/-! ### Rebuilding

The rules are compiled first, so that a rebuild is, for some scrubber, what is put together from the
captures after scrubbing. The statements are proved for any scrubber and then said of the scrubber
of the rules. Scrubbing twice being the same as scrubbing once, captures that were scrubbed before
make no difference. -/

/-- A catalogue comes about if captures reconcile and their modules can be put in order. -/
theorem assemble_eq_ok_iff {course school : String} {snapshots : List Snapshot} {c : Catalog}
    {o : Outcome} : assemble course school snapshots = .ok (c, o) ↔
      reconcile .canonical snapshots = .ok o ∧ Catalog.build course school o = .ok c := by
  unfold assemble
  -- the first stage that fails gives the error, and two results agree in both parts
  cases reconcile .canonical snapshots with
  | error e => simp [Except.mapError, bind, Except.bind]
  | ok o' =>
    cases hb : Catalog.build course school o' with
    | error e =>
      simp only [Except.mapError, bind, Except.bind, hb, reduceCtorEq, Except.ok.injEq, false_iff,
        not_and]
      rintro rfl h
      cases hb.symm.trans h
    | ok c' =>
      simp only [Except.mapError, bind, Except.bind, hb, pure, Except.pure, Except.ok.injEq,
        Prod.mk.injEq]
      constructor
      · rintro ⟨rfl, rfl⟩
        exact ⟨rfl, hb⟩
      · rintro ⟨rfl, h⟩
        exact ⟨Except.ok.inj (hb.symm.trans h), rfl⟩

/-- A rebuild scrubs its captures and then puts them together. -/
theorem runPipeline_eq_ok_iff [Pattern.Dialect] {course school : String} {rules : Rules}
    {snapshots : List Snapshot} {c : Catalog} {o : Outcome} :
    runPipeline course school rules snapshots = .ok (c, o) ↔
      ∃ s, Scrubber.ofRules rules = .ok s ∧
        assemble course school (snapshots.map s.scrubSnapshot) = .ok (c, o) := by
  unfold runPipeline
  cases Scrubber.ofRules rules with
  | error e => simp [Except.mapError, bind, Except.bind]
  | ok s => simp [Except.mapError, bind, Except.bind]

theorem Scrub.Scrubber.map_scrubSnapshot_twice (s : Scrubber) (snapshots : List Snapshot) :
    (snapshots.map s.scrubSnapshot).map s.scrubSnapshot = snapshots.map s.scrubSnapshot := by
  rw [List.map_map]
  exact List.map_congr_left fun d _ => s.scrubSnapshot_scrubSnapshot d

/-- A catalogue that is put together from scrubbed captures holds nothing that the scrubber would
find. Cleaning it with that scrubber leaves it as it is and drops no section. -/
theorem Scrub.Scrubber.scrubbed_assemble {s : Scrubber} {course school : String}
    {snapshots : List Snapshot} {c : Catalog} {o : Outcome}
    (h : assemble course school (snapshots.map s.scrubSnapshot) = .ok (c, o)) :
    (∀ m ∈ c.modules, m.Scrubbed s) ∧ s.scrubCatalog c = c ∧
      (s.reportCatalog c).sectionsRemoved = 0 := by
  obtain ⟨hr, hb⟩ := assemble_eq_ok_iff.mp h
  obtain ⟨walk, hperm, -, hmodules, -⟩ := Catalog.exists_walk_of_build hr hb
  have hclean : ∀ m ∈ c.modules, m.Scrubbed s :=
    fun m hm => scrubbed_of_mem_modules hperm (hmodules.mem_iff.mp hm)
  refine ⟨hclean, s.scrubCatalog_eq_self hclean, ?_⟩
  rw [s.reportCatalog_eq hclean]

/-- The catalogue of a rebuild holds nothing that the scrubber of its rules would find. Cleaning it
with that scrubber leaves it as it is and drops no section, and a rebuild from captures that were
scrubbed before gives the same catalogue and outcome. -/
theorem scrubbed_rebuild [Pattern.Dialect] {course school : String} {rules : Rules}
    {snapshots : List Snapshot} {c : Catalog} {o : Outcome}
    (h : runPipeline course school rules snapshots = .ok (c, o)) :
    ∃ s, Scrubber.ofRules rules = .ok s ∧ (∀ m ∈ c.modules, m.Scrubbed s) ∧
      s.scrubCatalog c = c ∧ (s.reportCatalog c).sectionsRemoved = 0 ∧
      runPipeline course school rules (snapshots.map s.scrubSnapshot) = .ok (c, o) := by
  obtain ⟨s, hs, hassemble⟩ := runPipeline_eq_ok_iff.mp h
  obtain ⟨hclean, hcatalog, hreport⟩ := Scrubber.scrubbed_assemble hassemble
  refine ⟨s, hs, hclean, hcatalog, hreport, runPipeline_eq_ok_iff.mpr ⟨s, hs, ?_⟩⟩
  -- the captures are the same after a second scrubbing, so the rest of the rebuild is too
  rwa [s.map_scrubSnapshot_twice]

/-- Captures that name a person, list students and keep the text of the page. -/
def markedCaptures : List Snapshot :=
  [⟨"", ⟨"2025/6"⟩, "", none, [{ Record.blank "MTH1" "Year 1" with
      moduleRules := .text "ask Ann"
      contentSections := .ofList [("Aims", "limits"), ("Students", "Ann")]
      extra := .ofList [("full_detail_text", .text "Ann")] }]⟩,
    ⟨"", ⟨"2026/7"⟩, "", none, [{ Record.blank "MTH1" "Year 1" with
      moduleRules := .text "ask", notes := "Ann 100123456/1" }]⟩]

/-- The catalogue of the captures, without the person and with one text for the rules. -/
def markedCatalog : Catalog :=
  ⟨"", "", [⟨"2025/6"⟩, ⟨"2026/7"⟩],
    [⟨{ Record.blank "MTH1" "Year 1" with
        moduleRules := .text "ask", contentSections := .ofList [("Aims", "limits")] },
      [⟨"2025/6"⟩, ⟨"2026/7"⟩], none⟩]⟩

theorem runPipeline_markedCaptures :
    ∃ o, runPipeline "" "" ⟨["Ann"], []⟩ markedCaptures = .ok (markedCatalog, o) := by
  let s : Scrubber := ⟨["Ann".toList], []⟩
  have hs : Scrubber.ofRules ⟨["Ann"], []⟩ = .ok s := by decide
  have hmodules : (Outcome.ofWalk .canonical (markedCaptures.map s.scrubSnapshot)).modules =
      markedCatalog.modules := by
    decide +kernel
  obtain ⟨o, hr, hb⟩ := Catalog.build_of_ascending (by decide) rfl hmodules (by decide) (by decide)
  exact ⟨o, runPipeline_eq_ok_iff.mpr ⟨s, hs, assemble_eq_ok_iff.mpr ⟨hr, hb⟩⟩⟩

theorem scrubbed_rebuild_marked :
    ∃ (o : Outcome) (s : Scrubber),
      runPipeline "" "" ⟨["Ann"], []⟩ markedCaptures = .ok (markedCatalog, o) ∧
      s.scrubCatalog markedCatalog = markedCatalog ∧
      (s.reportCatalog markedCatalog).sectionsRemoved = 0 ∧
      runPipeline "" "" ⟨["Ann"], []⟩ (markedCaptures.map s.scrubSnapshot) =
        .ok (markedCatalog, o) := by
  obtain ⟨o, h⟩ := runPipeline_markedCaptures
  obtain ⟨s, -, -, hcatalog, hreport, hagain⟩ := scrubbed_rebuild h
  exact ⟨o, s, h, hcatalog, hreport, hagain⟩

end Prospectus
