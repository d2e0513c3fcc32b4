import Prospectus.Availability.Entry
import Prospectus.Proofs.Availability.Answers
import Prospectus.Proofs.Catalog.Built

/-!
# The rules that go with an answer

An answer is found by calendar year, but the rules that are shown with it are looked up by label.
The two fit where the label of the basis is one of the module's own: then the rules are those of
the last record of the module in the snapshot of that label (`same_effectiveRules`). They need not
fit in a projection if several labels start in one calendar year. The index knows only the first of
them, the module may be in another, and then the look-up falls back to the latest rules
(`not_governed_by_twin_label`).
-/

namespace Prospectus

open Snapshot AcademicYear

/-! ### The last record of a module in a snapshot

A snapshot may have several records of one identity, and of these the last one stands. The
observation of a walk goes by sightings, which are the records of all snapshots in a row, so the
first thing to see is which sightings belong to one snapshot. -/

/-- The last record of an identity in a snapshot. -/
def Snapshot.lastOf? (s : Snapshot) (i : Identity) : Option Record :=
  (s.modules.filter fun r => r.identity = i).getLast?

/-- Among the sightings of an identity, those of one year are its records in the snapshot of that
year. This needs distinct labels, since otherwise two snapshots would share the year. -/
theorem filter_sightingsOf {walk : List Snapshot} (hd : Distinct walk) {s : Snapshot}
    (hs : s ∈ walk) {i : Identity} (hi : i.Complete) :
    ((sightingsOf walk i).filter fun p => p.year = s.academicYear) =
      (s.modules.filter fun r => r.identity = i).map fun r => ⟨s.academicYear, r⟩ := by
  -- the sightings of one snapshot are all of its year: they pass the filter together or not at all
  have hhead : ∀ t : Snapshot, (((t.keyed.map fun r => (⟨t.academicYear, r⟩ : Sighting)).filter
      fun p => p.record.identity = i).filter fun p => p.year = s.academicYear) =
        if t.academicYear = s.academicYear then
          (t.modules.filter fun r => r.identity = i).map fun r => ⟨s.academicYear, r⟩
        else [] := by
    intro t
    simp only [List.filter_map, Function.comp_def, t.filter_keyed hi]
    split
    · next heq => simp [heq]
    · next hne => simp [hne]
  simp only [sightingsOf, sightings]
  induction walk with
  | nil => cases hs
  | cons t walk ih =>
    obtain ⟨ht, hwalk⟩ := List.nodup_cons.mp hd
    rw [List.flatMap_cons, List.filter_append, List.filter_append, hhead]
    rcases List.mem_cons.mp hs with rfl | hs
    · -- no later snapshot has this label
      have hnil : ((walk.flatMap fun t => t.keyed.map fun r =>
          (⟨t.academicYear, r⟩ : Sighting)).filter fun p => p.record.identity = i).filter
            (fun p => p.year = s.academicYear) = [] := by
        rw [List.filter_filter, List.filter_eq_nil_iff]
        intro p hp hcond
        obtain ⟨u, hu, hyear, -⟩ := mem_sightings.mp hp
        have hlabel : p.year = s.academicYear := by simp_all
        exact ht (List.mem_map.mpr ⟨u, hu, hyear.trans hlabel⟩)
      rw [hnil, if_pos rfl, List.append_nil]
    · -- the head has another label, and nothing of it is left
      have hne : t.academicYear ≠ s.academicYear :=
        fun heq => ht (List.mem_map.mpr ⟨s, hs, heq.symm⟩)
      rw [if_neg hne, List.nil_append]
      exact ih hwalk hs

/-- The rules that an observation keeps for the year of a snapshot are those of the last record
there. -/
theorem Observation.Sums.find?_rules_eq {o : Observation} {walk : List Snapshot} {i : Identity}
    (h : o.Sums (sightingsOf walk i)) (hd : Distinct walk) {s : Snapshot} (hs : s ∈ walk)
    (hi : i.Complete) : o.rules.find? s.academicYear = (s.lastOf? i).map Record.moduleRules := by
  rw [h.find?_rules, ← List.head?_filter, List.filter_reverse, List.head?_reverse,
    filter_sightingsOf hd hs hi, List.getLast?_map, Option.map_map]
  rfl

/-! ### Rules of a module in a year

Under a label of its own a module has the rules of that capture, up to the equivalence, whether
they are kept by year or not. Under any other label the look-up finds nothing and gives the latest
rules. Both are facts about the label, and neither speaks of calendar years. -/

section

variable {e : RulesEquivalence} {walk : List Snapshot} {m : MergedModule}

/-- A module runs in the year of a snapshot iff the snapshot has a record of it. -/
theorem mem_availableYears_iff_lastOf? (hd : Distinct walk)
    (hm : m ∈ (Outcome.ofWalk e walk).modules) {s : Snapshot} (hs : s ∈ walk) :
    s.academicYear ∈ m.availableYears ↔ ∃ r, s.lastOf? m.identity = some r := by
  rw [mem_availableYears_iff hm, ← Option.isSome_iff_exists, lastOf?, List.getLast?_isSome]
  constructor
  · rintro ⟨t, ht, hlabel, r, hr, hi⟩ hnil
    obtain rfl := hd.eq_of_academicYear_eq ht hs hlabel
    have hnot := List.filter_eq_nil_iff.mp hnil r hr
    simp [hi] at hnot
  · intro hne
    obtain ⟨r, hr⟩ := List.exists_mem_of_ne_nil _ hne
    obtain ⟨hr, hi⟩ := List.mem_filter.mp hr
    exact ⟨s, hs, rfl, r, hr, by simpa using hi⟩

/-- Each year of a module has a snapshot with a record of it. -/
theorem exists_lastOf?_of_mem_availableYears (hd : Distinct walk)
    (hm : m ∈ (Outcome.ofWalk e walk).modules) {y : AcademicYear} (hy : y ∈ m.availableYears) :
    ∃ s ∈ walk, s.academicYear = y ∧ ∃ r, s.lastOf? m.identity = some r := by
  obtain ⟨s, hs, rfl, -⟩ := (mem_availableYears_iff hm).mp hy
  exact ⟨s, hs, rfl, (mem_availableYears_iff_lastOf? hd hm hs).mp hy⟩

/-- The rules of a module in a year of its own are the same as those of its last record in the
snapshot of that year. Where the rules are not kept by year, so are its latest rules: that they were
not kept means that all values are the same. -/
theorem same_effectiveRules (hd : Distinct walk) (hm : m ∈ (Outcome.ofWalk e walk).modules)
    {s : Snapshot} (hs : s ∈ walk) {r : Record} (hr : s.lastOf? m.identity = some r) :
    e.Same (m.effectiveRules s.academicYear) r.moduleRules ∧
      (m.rulesByYear = none → e.Same m.record.moduleRules r.moduleRules) := by
  obtain ⟨hne, o, hsums, hmo⟩ := sums_of_mem_modules hm
  have hcomplete : m.identity.Complete := complete_of_mem_modules hm
  have hfind : o.rules.find? s.academicYear = some r.moduleRules := by
    rw [hsums.find?_rules_eq hd hs hcomplete, hr]
    rfl
  have hrules : m.rulesByYear = if e.differ o.rules.values then some o.rules else none :=
    congrArg MergedModule.rulesByYear hmo
  cases hdiffer : e.differ o.rules.values with
  | true =>
    -- the rules differ from year to year, so the module has those of this year by itself
    rw [hdiffer, if_pos rfl] at hrules
    have heq : m.effectiveRules s.academicYear = r.moduleRules := by
      simp [MergedModule.effectiveRules, hrules, hfind]
    exact ⟨congrArg e.key heq, by simp [hrules]⟩
  | false =>
    rw [hdiffer] at hrules
    -- the latest rules are those of the year of the last sighting
    obtain ⟨p, hp, hrec⟩ := hsums.record
    have hlast : o.rules.find? p.year = some m.record.moduleRules := by
      obtain ⟨ps, hps⟩ := List.getLast?_eq_some_iff.mp hp
      have hmr : m.record.moduleRules = p.record.moduleRules := by
        rw [congrArg MergedModule.record hmo]
        show o.record.moduleRules = _
        rw [hrec]
      rw [hsums.find?_rules, hps, List.reverse_concat, List.find?_cons, hmr]
      simp
    have hsame : e.Same m.record.moduleRules r.moduleRules := by
      -- otherwise two values of the observation would differ
      by_contra hne
      have hd : e.differ o.rules.values = true := RulesEquivalence.differ_iff.mpr
        ⟨_, Dict.mem_values_iff.mpr ⟨_, hlast⟩, _, Dict.mem_values_iff.mpr ⟨_, hfind⟩, hne⟩
      rw [hdiffer] at hd
      cases hd
    refine ⟨?_, fun _ => hsame⟩
    rw [MergedModule.effectiveRules, hrules]
    exact hsame

/-- In a year in which a module was not captured the look-up falls back to its latest rules. -/
theorem effectiveRules_of_not_mem (hm : m ∈ (Outcome.ofWalk e walk).modules) {y : AcademicYear}
    (hy : y ∉ m.availableYears) : m.effectiveRules y = m.record.moduleRules := by
  obtain ⟨-, o, hsums, hmo⟩ := sums_of_mem_modules hm
  have hnone : o.rules.find? y = none := by
    rw [hsums.find?_rules, Option.map_eq_none_iff, List.find?_eq_none]
    intro p hp hyear
    have hmem : y ∈ o.years :=
      (hsums.mem_years y).mpr ⟨p, List.mem_reverse.mp hp, of_decide_eq_true hyear⟩
    exact hy (by rw [hmo]; exact hmem)
  have hrules : m.rulesByYear = if e.differ o.rules.values then some o.rules else none :=
    congrArg MergedModule.rulesByYear hmo
  rw [MergedModule.effectiveRules, hrules]
  split
  · rw [Option.bind_some, hnone, Option.getD_none]
  · rfl

end

/-! ### Modules for an entry year

The basis of an answer names a label of the catalogue, and the rules are looked up under it. If the
module runs in the target year itself, that label is the module's own. If the answer is projected,
it is the label that the index has for the proxy, which need not be: another label may start in the
same calendar year. The exact condition is in `rules_of_available_entry`, and
`not_governed_by_twin_label` shows that it is needed. -/

/-- In a catalogue whose labels all have a calendar year, a valid query lists the modules of the
year of study, each resolved in the index of the catalogue. -/
theorem Catalog.exists_modulesForEntry {c : Catalog} {q : Query} (hyears : Dated c.academicYears)
    (hm : ∀ m ∈ c.modules, Dated m.availableYears) (hq : q.Valid) :
    ∃ x : CaptureIndex, x.Indexes c.academicYears ∧ c.modulesForEntry q =
      .ok ((c.modules.filter fun m => studyYearNumber? m.record.yearOfStudy == some q.studyYear).map
        fun m =>
          let d := x.resolve m q.target q.cycleLength
          ⟨m, d, m.rulesFor d.basis⟩) := by
  obtain ⟨x, hx, hindex⟩ := CaptureIndex.exists_ofYears hyears
  refine ⟨x, hindex, ?_⟩
  rw [modulesForEntry, hx]
  refine mapM_eq_ok_iff.mpr (List.forall₂_map_right_iff.mpr ?_)
  refine List.forall₂_same.mpr fun m hmem => ?_
  have hmem := List.mem_of_mem_filter hmem
  rw [CaptureIndex.decide_eq_resolve hindex (hm m hmem) hq.1 hq.targetYear_eq]
  rfl

/-- The label that an answer rests on, if it rests on one. -/
def Basis.year? : Basis → Option AcademicYear
  | .captured year => some year
  | .projected proxy => some proxy
  | .noCongruentCapture => none

/-- The rules of an entry are those of the last record of the module in some snapshot of the
calendar year in which `y` starts. -/
def EntryModule.GovernedBy (e : EntryModule) (snapshots : List Snapshot) (y : AcademicYear) :
    Prop :=
  ∃ s ∈ snapshots, s.academicYear.startYear? = y.startYear? ∧
    ∃ r, s.lastOf? e.merged.identity = some r ∧
      RulesEquivalence.canonical.Same e.rules r.moduleRules

namespace EntryModule

variable {walk snapshots : List Snapshot} {e : EntryModule} {y : AcademicYear}

/-- Which captures govern an entry does not depend on the order in which they are given. -/
theorem GovernedBy.of_perm (hperm : walk.Perm snapshots) (h : e.GovernedBy walk y) :
    e.GovernedBy snapshots y := by
  obtain ⟨s, hs, hlast⟩ := h
  exact ⟨s, hperm.mem_iff.mp hs, hlast⟩

/-- Rules that are looked up under a label of the module's own are those of that capture. -/
theorem governedBy_of_mem (hd : Distinct walk)
    (hm : e.merged ∈ (Outcome.ofWalk .canonical walk).modules) (hy : y ∈ e.merged.availableYears)
    (hrules : e.rules = e.merged.effectiveRules y) : e.GovernedBy walk y := by
  obtain ⟨s, hs, rfl, r, hr⟩ := exists_lastOf?_of_mem_availableYears hd hm hy
  refine ⟨s, hs, rfl, r, hr, ?_⟩
  rw [hrules]
  exact (same_effectiveRules hd hm hs hr).1

/-- Rules that were the same in all years are those of any capture in the calendar year, so here it
does no harm that the label of the basis is not the module's own. -/
theorem governedBy_of_rulesByYear_eq_none (hd : Distinct walk)
    (hm : e.merged ∈ (Outcome.ofWalk .canonical walk).modules) {z : AcademicYear}
    (hz : z ∈ e.merged.availableYears) (hzy : z.startYear? = y.startYear?)
    (hnone : e.merged.rulesByYear = none) (hrules : e.rules = e.merged.effectiveRules y) :
    e.GovernedBy walk y := by
  obtain ⟨s, hs, rfl, r, hr⟩ := exists_lastOf?_of_mem_availableYears hd hm hz
  have hlatest : e.rules = e.merged.record.moduleRules := by
    rw [hrules, MergedModule.effectiveRules, hnone]
    rfl
  refine ⟨s, hs, hzy, r, hr, ?_⟩
  rw [hlatest]
  exact (same_effectiveRules hd hm hs hr).2 hnone

/-- What is shown with the answer that a module runs, given the captures in the order of their
labels. -/
theorem rules_of_answers (hd : Distinct walk)
    (hm : e.merged ∈ (Outcome.ofWalk .canonical walk).modules) {target : Int} {cycle : Nat}
    (hrules : e.rules = e.merged.rulesFor e.decision.basis)
    (h : Answers (walk.map academicYear) e.merged.availableYears target cycle .available
      e.decision.basis) :
    ∃ y, e.decision.basis.year? = some y ∧
      (y ∈ e.merged.availableYears ∨ e.merged.rulesByYear = none → e.GovernedBy walk y) ∧
      (y ∉ e.merged.availableYears →
        e.decision.basis = .projected y ∧ e.rules = e.merged.record.moduleRules) ∧
      ((walk.map fun s => s.academicYear.startYear?).Nodup → e.GovernedBy walk y) := by
  generalize hbasis : e.decision.basis = basis at h hrules ⊢
  cases h with
  | @runs y hy hstart =>
    -- the module runs in the target year, and the label of the basis is its own
    have hgoverned : e.GovernedBy walk y := governedBy_of_mem hd hm hy hrules
    exact ⟨y, rfl, fun _ => hgoverned, fun hnot => absurd hy hnot, fun _ => hgoverned⟩
  | @proxyRuns y n _ _ _ hy hstart hn =>
    -- a proxy may have another label than the capture in which the module runs
    obtain ⟨z, hz, hzn⟩ := hn
    have hzy : z.startYear? = y.startYear? := hzn.trans hstart.symm
    refine ⟨y, rfl, ?_, ?_, ?_⟩
    · -- with the label of the module, or with one value of rules for all years, the rules are
      -- right
      rintro (hy | hnone)
      · exact governedBy_of_mem hd hm hy hrules
      · exact governedBy_of_rulesByYear_eq_none hd hm hz hzy hnone hrules
    · exact fun hnot => ⟨rfl, hrules.trans (effectiveRules_of_not_mem hm hnot)⟩
    · -- with one capture a calendar year, the label of the basis is that of the module
      intro hnodup
      obtain ⟨s, hs, rfl⟩ := List.mem_map.mp hy
      obtain ⟨t, ht, rfl, -⟩ := exists_lastOf?_of_mem_availableYears hd hm hz
      obtain rfl : t = s := List.inj_on_of_nodup_map hnodup ht hs hzy
      exact governedBy_of_mem hd hm hz hrules

end EntryModule

/-- A valid query of a catalogue that is built from captures has an answer for each module. If the
module runs, the rules shown are those of the calendar year of the basis, provided the label of the
basis is one of the module's own or the rules are not kept by year. Otherwise the basis is a proxy
in which the module was not captured, and the rules shown are the latest ones. If no two captures
start in one calendar year, the rules always are those of the year of the basis. -/
theorem rules_of_available_entry {snapshots : List Snapshot} {o : Outcome}
    {course school : String} {c : Catalog} {q : Query}
    (hdated : Dated (snapshots.map academicYear)) (hr : reconcile .canonical snapshots = .ok o)
    (hb : Catalog.build course school o = .ok c) (hq : q.Valid) :
    ∃ es, c.modulesForEntry q = .ok es ∧ ∀ e ∈ es, e.decision.availability = .available →
      ∃ y, e.decision.basis.year? = some y ∧
        (y ∈ e.merged.availableYears ∨ e.merged.rulesByYear = none → e.GovernedBy snapshots y) ∧
        (y ∉ e.merged.availableYears →
          e.decision.basis = .projected y ∧ e.rules = e.merged.record.moduleRules) ∧
        ((snapshots.map fun s => s.academicYear.startYear?).Nodup → e.GovernedBy snapshots y) := by
  -- the entries come from the modules of a walk, and each is answered for its years there
  obtain ⟨walk, hperm, hasc, hmodules, hyears⟩ := Catalog.exists_walk_of_build hr hb
  have hd : Distinct walk := hasc.distinct
  have hwalk : Dated (walk.map academicYear) :=
    fun y hy => hdated y ((hperm.map academicYear).mem_iff.mp hy)
  have hruns : ∀ m ∈ c.modules, Dated m.availableYears := by
    intro m hm y hy
    obtain ⟨s, hs, rfl, -⟩ :=
      exists_lastOf?_of_mem_availableYears hd (hmodules.mem_iff.mp hm) hy
    exact hwalk _ (List.mem_map_of_mem hs)
  obtain ⟨x, hx, hes⟩ := Catalog.exists_modulesForEntry (hyears ▸ hwalk) hruns hq
  refine ⟨_, hes, fun e he havailable => ?_⟩
  obtain ⟨m, hm, rfl⟩ := List.mem_map.mp he
  have hm : m ∈ (Outcome.ofWalk .canonical walk).modules :=
    hmodules.mem_iff.mp (List.mem_of_mem_filter hm)
  have hanswers : Answers (walk.map academicYear) m.availableYears q.target q.cycleLength
      .available (x.resolve m q.target q.cycleLength).basis := by
    rw [← hyears, ← havailable]
    exact hx.answers_resolve hq.1
  -- what is said of an entry is said of its module and its decision
  let d : Decision := x.resolve m q.target q.cycleLength
  obtain ⟨y, hy, hown, hforeign, hsingle⟩ :=
    EntryModule.rules_of_answers (e := ⟨m, d, m.rulesFor d.basis⟩) hd hm rfl hanswers
  refine ⟨y, hy, fun h => (hown h).of_perm hperm, hforeign, fun hnodup => ?_⟩
  exact (hsingle ((hperm.map _).nodup_iff.mpr hnodup)).of_perm hperm

/-- Two labels of one calendar year, and a module that is only in the second of them. Its rules
changed afterwards. -/
def twinCaptures : List Snapshot :=
  [⟨"", ⟨"2025/6"⟩, "", none, []⟩,
    ⟨"", ⟨"2025/7"⟩, "", none, [{ Record.blank "MTH1" "Year 1" with moduleRules := .text "old" }]⟩,
    ⟨"", ⟨"2026/7"⟩, "", none, [{ Record.blank "MTH1" "Year 1" with moduleRules := .text "new" }]⟩]

/-- The only module of the captures. -/
def twinModule : MergedModule :=
  ⟨{ Record.blank "MTH1" "Year 1" with moduleRules := .text "new" }, [⟨"2025/7"⟩, ⟨"2026/7"⟩],
    some (.ofList [(⟨"2025/7"⟩, .text "old"), (⟨"2026/7"⟩, .text "new")])⟩

/-- The catalogue of the captures, with the labels of all three. -/
def twinCatalog : Catalog := ⟨"", "", [⟨"2025/6"⟩, ⟨"2025/7"⟩, ⟨"2026/7"⟩], [twinModule]⟩

/-- The catalogue is indeed what the captures are built into. -/
theorem build_twinCaptures : ∃ o, reconcile .canonical twinCaptures = .ok o ∧
    Catalog.build "" "" o = .ok twinCatalog := by
  have hmodules : (Outcome.ofWalk .canonical twinCaptures).modules = twinCatalog.modules := by
    decide +kernel
  exact Catalog.build_of_ascending (by decide) rfl hmodules (by decide) (by decide)

/-- A target that was captured: the rules shown are those of its year, not the latest ones. -/
theorem rules_of_available_entry_captured :
    let q : Query := ⟨2025, 1, 2⟩
    Dated (twinCaptures.map academicYear) ∧ q.Valid ∧
      ∃ es, twinCatalog.modulesForEntry q = .ok es ∧ ∃ e ∈ es,
        e.decision = ⟨.available, 2025, .captured ⟨"2025/7"⟩⟩ ∧ e.rules = .text "old" ∧
          e.GovernedBy twinCaptures ⟨"2025/7"⟩ := by
  intro q
  have hdated : Dated (twinCaptures.map academicYear) := by decide
  have hq : q.Valid := by decide
  obtain ⟨o, hr, hb⟩ := build_twinCaptures
  obtain ⟨es, hes, hrules⟩ := rules_of_available_entry hdated hr hb hq
  have hshown : twinCatalog.modulesForEntry q =
      .ok [⟨twinModule, ⟨.available, 2025, .captured ⟨"2025/7"⟩⟩, .text "old"⟩] := by
    decide +kernel
  obtain rfl := Except.ok.inj (hes.symm.trans hshown)
  obtain ⟨y, hy, hgoverned, -⟩ := hrules _ (List.mem_singleton.mpr rfl) rfl
  cases hy
  exact ⟨hdated, hq, _, hes, _, List.mem_singleton.mpr rfl, rfl, rfl, hgoverned (.inl (by decide))⟩

/-- A target that is projected through the twin label: the rules shown are not those of that
calendar year. -/
theorem not_governed_by_twin_label :
    let q : Query := ⟨2027, 1, 2⟩
    let e : EntryModule :=
      ⟨twinModule, ⟨.available, 2027, .projected ⟨"2025/6"⟩⟩, .text "new"⟩
    (∃ o, reconcile .canonical twinCaptures = .ok o ∧
      Catalog.build "" "" o = .ok twinCatalog) ∧
    Distinct twinCaptures ∧ Dated (twinCaptures.map academicYear) ∧ q.Valid ∧
      twinCatalog.modulesForEntry q = .ok [e] ∧ ¬ e.GovernedBy twinCaptures ⟨"2025/6"⟩ := by
  intro q e
  refine ⟨build_twinCaptures, by decide, by decide, by decide, by decide +kernel, ?_⟩
  rintro ⟨s, hs, hstart, r, hr, hsame⟩
  revert s r
  decide +kernel

end Prospectus
