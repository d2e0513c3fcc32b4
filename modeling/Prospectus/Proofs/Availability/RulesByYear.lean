import Prospectus.Proofs.Availability.RulesInForce

/-!
# Rules kept by year

What the captures say about the rules of a module is one value for each of its years: the rules of
the last record in the snapshot of that year (`rulesIn?`). A merged module keeps these values by
year if they are not all the same, and keeps the latest of them alone if they are. Either way
nothing is lost up to the equivalence (`MergedModule.TracksRules`): the rules that are looked up for
a year are those that were captured in it. `reconcile_tracksRules` says so for every equivalence.
-/

namespace Prospectus

open Std Snapshot

/-- The rules that captures say for an identity in an academic year: those of its last record in the
capture of that year. There are none if the year was not captured or did not have the identity. -/
def rulesIn? (captures : List Snapshot) (i : Identity) (y : AcademicYear) : Option Json.Value :=
  ((captures.find? fun d => d.academicYear = y).bind fun d => d.lastOf? i).map Record.moduleRules

/-- A merged module says of its rules what the captures say, year by year. -/
structure MergedModule.TracksRules (e : RulesEquivalence) (captures : List Snapshot)
    (m : MergedModule) : Prop where
  mem_availableYears : ∀ y, y ∈ m.availableYears ↔ (rulesIn? captures m.identity y).isSome
  /-- Rules are kept by year iff two years differ. -/
  kept_iff : m.rulesByYear.isSome ↔ ∃ y ∈ m.availableYears, ∃ z ∈ m.availableYears,
    ∃ v ∈ rulesIn? captures m.identity y, ∃ w ∈ rulesIn? captures m.identity z, ¬ e.Same v w
  keys : ∀ rules ∈ m.rulesByYear, rules.keys = m.availableYears
  find? : ∀ rules ∈ m.rulesByYear, ∀ y, rules.find? y = rulesIn? captures m.identity y
  /-- Whether or not they are kept by year, the rules of a year are those captured in it. -/
  inForce : ∀ y, ∀ v ∈ rulesIn? captures m.identity y, e.Same (m.effectiveRules y) v

/-! ### The rules of one year

A year is looked up among the captures by its label, and labels are distinct, so there is one
snapshot to look in. In it the identity may have several records, and the last one counts. The
observation of a walk keeps the same value, since it inserts the rules of each sighting over those
of the sightings before. -/

section

variable {captures captures' : List Snapshot} {i : Identity} {y : AcademicYear}

/-- Where labels are distinct, a label leads to its snapshot, and `find?` finds no other. -/
theorem find?_academicYear_eq_some_iff (h : Distinct captures) {d : Snapshot} :
    (captures.find? fun c => c.academicYear = y) = some d ↔ d ∈ captures ∧ d.academicYear = y := by
  constructor
  · intro hd
    exact ⟨List.mem_of_find?_eq_some hd, by simpa using List.find?_some hd⟩
  · rintro ⟨hd, rfl⟩
    cases hfind : captures.find? fun c => c.academicYear = d.academicYear with
    | none =>
      have hnot := List.find?_eq_none.mp hfind d hd
      simp at hnot
    | some c =>
      have hlabel : c.academicYear = d.academicYear := by simpa using List.find?_some hfind
      rw [h.eq_of_academicYear_eq (List.mem_of_find?_eq_some hfind) hd hlabel]

/-- What the captures say about the year of a snapshot is in that snapshot. -/
theorem rulesIn?_eq (h : Distinct captures) {d : Snapshot} (hd : d ∈ captures) :
    rulesIn? captures i d.academicYear = (d.lastOf? i).map Record.moduleRules := by
  rw [rulesIn?, (find?_academicYear_eq_some_iff h).mpr ⟨hd, rfl⟩]
  rfl

/-- The rules of a year belong to the last record of the identity in a snapshot of that year. -/
theorem rulesIn?_eq_some_iff (h : Distinct captures) {v : Json.Value} :
    rulesIn? captures i y = some v ↔ ∃ d ∈ captures, d.academicYear = y ∧
      ∃ r, d.lastOf? i = some r ∧ r.moduleRules = v := by
  rw [rulesIn?, Option.map_eq_some_iff]
  constructor
  · rintro ⟨r, hr, rfl⟩
    obtain ⟨d, hd, hlast⟩ := Option.bind_eq_some_iff.mp hr
    obtain ⟨hd, hyear⟩ := (find?_academicYear_eq_some_iff h).mp hd
    exact ⟨d, hd, hyear, r, hlast, rfl⟩
  · rintro ⟨d, hd, hyear, r, hlast, rfl⟩
    have hfind := (find?_academicYear_eq_some_iff h).mpr ⟨hd, hyear⟩
    exact ⟨r, Option.bind_eq_some_iff.mpr ⟨d, hfind, hlast⟩, rfl⟩

/-- The order in which captures are given makes no difference to what they say. -/
theorem rulesIn?_eq_of_perm (h : Distinct captures) (hperm : captures.Perm captures') :
    rulesIn? captures i y = rulesIn? captures' i y := by
  apply Option.ext
  intro v
  rw [rulesIn?_eq_some_iff h, rulesIn?_eq_some_iff (h.perm hperm)]
  simp only [hperm.mem_iff]

/-- An observation keeps of the rules what the captures say, each year on its own. The last sighting
of a year is the last record in the capture of that year. -/
theorem Observation.Sums.find?_rules_eq_rulesIn? {o : Observation}
    (h : o.Sums (sightingsOf captures i)) (hd : Distinct captures) (hi : i.Complete) :
    o.rules.find? y = rulesIn? captures i y := by
  by_cases hy : ∃ d ∈ captures, d.academicYear = y
  · obtain ⟨d, hmem, rfl⟩ := hy
    rw [h.find?_rules_eq hd hmem hi, rulesIn?_eq hd hmem]
  · -- no snapshot has this label, so neither side has rules for it
    have hleft : o.rules.find? y = none := by
      cases hfind : o.rules.find? y with
      | none => rfl
      | some v =>
        obtain ⟨p, hp, rfl, -⟩ := h.exists_of_find?_rules hfind
        obtain ⟨-, d, hmem, hyear, -⟩ := mem_sightingsOf.mp hp
        exact absurd ⟨d, hmem, hyear⟩ hy
    have hright : rulesIn? captures i y = none := by
      cases hsays : rulesIn? captures i y with
      | none => rfl
      | some v =>
        obtain ⟨d, hmem, hyear, -⟩ := (rulesIn?_eq_some_iff hd).mp hsays
        exact absurd ⟨d, hmem, hyear⟩ hy
    rw [hleft, hright]

end

/-! ### The modules of a walk

What holds for the observation holds for the module that is made of it. The one step between them
is the decision whether to keep the rules by year, and it is taken by comparing all values with
the first. That is enough for all pairs because the equivalence is transitive. -/

section

variable {e : RulesEquivalence} {walk : List Snapshot} {m : MergedModule}

/-- The modules of a walk keep the rules that its snapshots have. -/
theorem tracksRules_of_mem_modules (hw : Ascending walk)
    (hm : m ∈ (Outcome.ofWalk e walk).modules) : m.TracksRules e walk := by
  have hd : Distinct walk := hw.distinct
  have hcomplete : m.identity.Complete := complete_of_mem_modules hm
  obtain ⟨-, o, hsums, hmo⟩ := sums_of_mem_modules hm
  -- the observation has for each year what the captures say of it
  have hfind : ∀ y, o.rules.find? y = rulesIn? walk m.identity y :=
    fun y => hsums.find?_rules_eq_rulesIn? hd hcomplete
  have hyears : ∀ y, y ∈ m.availableYears ↔ (rulesIn? walk m.identity y).isSome := by
    -- a year of the module is one in which the captures give it rules
    intro y
    rw [Option.isSome_iff_exists]
    constructor
    · intro hy
      obtain ⟨s, hs, rfl, r, hr⟩ := exists_lastOf?_of_mem_availableYears hd hm hy
      exact ⟨_, (rulesIn?_eq_some_iff hd).mpr ⟨s, hs, rfl, r, hr, rfl⟩⟩
    · rintro ⟨v, hv⟩
      obtain ⟨s, hs, rfl, r, hr, -⟩ := (rulesIn?_eq_some_iff hd).mp hv
      exact (mem_availableYears_iff_lastOf? hd hm hs).mpr ⟨r, hr⟩
  have hmem : ∀ {rules}, rules ∈ m.rulesByYear ↔ e.differ o.rules.values ∧ o.rules = rules := by
    intro rules
    rw [hmo]
    exact Observation.mem_rulesByYear_iff
  constructor
  · exact hyears
  · -- the values that an observation holds are those of the years
    rw [Option.isSome_iff_exists]
    simp only [← Option.mem_def, hmem, exists_and_left, exists_eq', and_true,
      RulesEquivalence.differ_iff, Dict.mem_values_iff, hfind]
    constructor
    · rintro ⟨v, ⟨y, hy⟩, w, ⟨z, hz⟩, hvw⟩
      have hmemy : y ∈ m.availableYears := (hyears y).mpr (by rw [hy]; rfl)
      have hmemz : z ∈ m.availableYears := (hyears z).mpr (by rw [hz]; rfl)
      exact ⟨y, hmemy, z, hmemz, v, hy, w, hz, hvw⟩
    · rintro ⟨y, -, z, -, v, hy, w, hz, hvw⟩
      exact ⟨v, ⟨y, hy⟩, w, ⟨z, hz⟩, hvw⟩
  · -- the keys of the rules and the years of the module ascend, so equal members are enough
    intro rules hrules
    obtain ⟨-, rfl⟩ := hmem.mp hrules
    have hascending := (ofWalk_agreesWith e hw).availableYears_ascending m hm
    apply eq_of_ascending o.rules.keys_ascending hascending
    intro y
    rw [Dict.mem_keys_iff, hyears, Option.isSome_iff_exists, hfind]
  · intro rules hrules y
    obtain ⟨-, rfl⟩ := hmem.mp hrules
    exact hfind y
  · -- what is in force in a year is what the capture of that year says
    intro y v hv
    obtain ⟨s, hs, rfl, r, hr, rfl⟩ := (rulesIn?_eq_some_iff hd).mp hv
    exact (same_effectiveRules hd hm hs hr).1

/-- What the captures say does not depend on their order, and so neither does following it. -/
theorem MergedModule.TracksRules.of_perm {captures : List Snapshot} (h : m.TracksRules e walk)
    (hd : Distinct walk) (hperm : walk.Perm captures) : m.TracksRules e captures := by
  have hsame : ∀ y, rulesIn? captures m.identity y = rulesIn? walk m.identity y :=
    fun y => (rulesIn?_eq_of_perm hd hperm).symm
  constructor
  · simpa only [hsame] using h.mem_availableYears
  · simpa only [hsame] using h.kept_iff
  · exact h.keys
  · simpa only [hsame] using h.find?
  · simpa only [hsame] using h.inForce

end

/-- Under every equivalence, reconciled modules keep rules by year iff two years differ, and the
rules of a year are those that were captured in it, last of all. -/
theorem reconcile_tracksRules (e : RulesEquivalence) {captures : List Snapshot}
    (h : Distinct captures) :
    ∃ o, reconcile e captures = .ok o ∧ ∀ m ∈ o.modules, m.TracksRules e captures := by
  refine ⟨_, reconcile_of_distinct e h, fun m hm => ?_⟩
  have hascending : Ascending (walk captures) := h.walk_ascending
  exact (tracksRules_of_mem_modules hascending hm).of_perm hascending.distinct (walk_perm captures)

/-- A module whose rules were changed and changed back. In the first year it stands twice. -/
def returnedCaptures : List Snapshot :=
  let ruled (rules : String) : Record :=
    { Record.blank "MTH1" "Year 1" with moduleRules := .text rules }
  [⟨"", ⟨"2025/6"⟩, "", none, [ruled "none", ruled "MTH0"]⟩,
    ⟨"", ⟨"2026/7"⟩, "", none, [ruled "MTH2"]⟩, ⟨"", ⟨"2027/8"⟩, "", none, [ruled "mth0"]⟩]

/-- If case counts for nothing, the rules of the first and of the last year are the same, and are
kept by year because of the year between. -/
theorem reconcile_tracksRules_returned :
    Distinct returnedCaptures ∧ ∃ o, reconcile .ignoreAsciiCase returnedCaptures = .ok o ∧
      ∃ m ∈ o.modules, m.rulesByYear = some (.ofList [(⟨"2025/6"⟩, .text "MTH0"),
        (⟨"2026/7"⟩, .text "MTH2"), (⟨"2027/8"⟩, .text "mth0")]) ∧
      m.TracksRules .ignoreAsciiCase returnedCaptures := by
  have hascending : Ascending returnedCaptures := by decide
  have hd : Distinct returnedCaptures := hascending.distinct
  obtain ⟨o, ho, htracks⟩ := reconcile_tracksRules .ignoreAsciiCase hd
  obtain rfl : Outcome.ofWalk .ignoreAsciiCase returnedCaptures = o := by
    rw [reconcile_of_distinct _ hd, hascending.walk_eq] at ho
    exact Except.ok.inj ho
  have hkept : ∃ m ∈ (Outcome.ofWalk .ignoreAsciiCase returnedCaptures).modules,
      m.rulesByYear = some (.ofList [(⟨"2025/6"⟩, .text "MTH0"), (⟨"2026/7"⟩, .text "MTH2"),
        (⟨"2027/8"⟩, .text "mth0")]) := by
    decide +kernel
  obtain ⟨m, hm, hrules⟩ := hkept
  exact ⟨hd, _, ho, m, hm, hrules, htracks m hm⟩

end Prospectus
