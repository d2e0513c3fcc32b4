import Prospectus.Proofs.Reconcile.Walk

/-!
# What the walk adds up to

The observations of a walk are a dictionary by identity. At one identity the dictionary holds what
the records of that identity come to, one after the other (`find?_observed`), so what the walk adds
up to can be said of one list of sightings at a time:

* `Observation.Sums` says what an observation is to hold after some sightings;
* `sums_observe_none` and `sums_observe_some` say that a first and a further sighting keep it;
* `exists_sums` carries it through a walk of any length.
-/

namespace Prospectus

open Std

/-! ### Sightings

A sighting is a record together with the label of its snapshot, which is all that an observation
takes in. Records without a complete identity are not sighted. The sightings of a walk stand in the
order in which they are read. -/

/-- A record, with the academic year of the snapshot that it stands in. -/
structure Sighting where
  year : AcademicYear
  record : Record

/-- Among the records with a complete identity are all records of such an identity. -/
theorem Snapshot.filter_keyed (s : Snapshot) {i : Identity} (hi : i.Complete) :
    (s.keyed.filter fun r => r.identity = i) = s.modules.filter fun r => r.identity = i := by
  rw [keyed, List.filter_filter]
  refine List.filter_congr fun r _ => ?_
  by_cases hri : r.identity = i
  · simp [hri, hi]
  · simp [hri]

/-- The sightings of a walk: the records with a complete identity, snapshot by snapshot. -/
def sightings (walk : List Snapshot) : List Sighting :=
  walk.flatMap fun s => s.keyed.map fun r => ⟨s.academicYear, r⟩

def sightingsOf (walk : List Snapshot) (i : Identity) : List Sighting :=
  (sightings walk).filter fun p => p.record.identity = i

theorem mem_sightings {walk : List Snapshot} {p : Sighting} :
    p ∈ sightings walk ↔ ∃ s ∈ walk, s.academicYear = p.year ∧ p.record ∈ s.modules ∧
      p.record.identity.Complete := by
  simp only [sightings, List.mem_flatMap, List.mem_map, Snapshot.keyed, List.mem_filter,
    decide_eq_true_eq]
  constructor
  · rintro ⟨s, hs, r, ⟨hr, hc⟩, rfl⟩
    exact ⟨s, hs, rfl, hr, hc⟩
  · rintro ⟨s, hs, hy, hr, hc⟩
    exact ⟨s, hs, p.record, ⟨hr, hc⟩, by rw [hy]⟩

@[simp] theorem sightingsOf_append (u v : List Snapshot) (i : Identity) :
    sightingsOf (u ++ v) i = sightingsOf u i ++ sightingsOf v i := by
  simp [sightingsOf, sightings]

theorem mem_sightingsOf {walk : List Snapshot} {i : Identity} {p : Sighting} :
    p ∈ sightingsOf walk i ↔ i.Complete ∧ ∃ d ∈ walk, d.academicYear = p.year ∧
      p.record ∈ d.modules ∧ p.record.identity = i := by
  simp only [sightingsOf, List.mem_filter, mem_sightings, decide_eq_true_eq]
  constructor
  · rintro ⟨⟨d, hd, hy, hr, hcomplete⟩, rfl⟩
    exact ⟨hcomplete, d, hd, hy, hr, rfl⟩
  · rintro ⟨hcomplete, d, hd, hy, hr, rfl⟩
    exact ⟨⟨d, hd, hy, hr, hcomplete⟩, rfl⟩

/-- Years do not descend along the sightings of an ascending walk. -/
theorem sightings_sorted {walk : List Snapshot} (h : Snapshot.Ascending walk) :
    (sightings walk).Pairwise fun p q => (compare p.year q.year).isLE := by
  rw [sightings, List.pairwise_flatMap]
  constructor
  · intro s _
    exact List.pairwise_map.mpr (List.pairwise_of_forall fun _ _ => by simp [ReflCmp.compare_self])
  · refine h.imp fun {s t} hst p hp q hq => ?_
    obtain ⟨r, -, rfl⟩ := List.mem_map.mp hp
    obtain ⟨r', -, rfl⟩ := List.mem_map.mp hq
    simp [hst]

/-! ### One identity at a time

The dictionary of observations is changed at one identity for each sighting. So at a given identity
it holds what the sightings of that identity come to, and the others can be forgotten. -/

namespace Observation

/-- What sightings come to, one after the other. -/
def ofSightings (ps : List Sighting) : Option Observation :=
  ps.foldl (fun o p => some (observe p.year p.record o)) none

theorem foldl_observe (walk : List Snapshot) (found : Dict Identity Observation) :
    walk.foldl Snapshot.observe found =
      (sightings walk).foldl (fun d p => d.alter p.record.identity (observe p.year p.record))
        found := by
  rw [sightings, List.foldl_flatMap]
  congr 1
  funext d s
  rw [Snapshot.observe, List.foldl_map]

/-- At each identity the observations hold what the sightings of that identity come to. With this
the dictionary is done with: everything else is about lists of sightings. -/
theorem find?_observed (walk : List Snapshot) (i : Identity) :
    (walk.foldl Snapshot.observe ∅).find? i = ofSightings (sightingsOf walk i) := by
  have hfilter : ((sightings walk).filter fun p => compare i p.record.identity == .eq) =
      sightingsOf walk i := by
    refine List.filter_congr fun p _ => ?_
    rw [Bool.eq_iff_iff, beq_iff_eq, LawfulEqCmp.compare_eq_iff_eq, decide_eq_true_eq, eq_comm]
  rw [foldl_observe, Dict.find?_foldl_alter, hfilter]
  rfl

/-! ### The invariant of the fold

All that is known about observations is in `Sums`: each field as a function of the list of
sightings. A first sighting begins an observation, a further one is added at the end of the list,
and these two steps are the proof. -/

/-- What an observation holds after some sightings: the last record with the sections of all, each
with its last body; the years, each once; and the last rules of each year.

Look-ups from the end of the list say what `last` means. Nothing is assumed about the order of the
years; along an ascending walk the last sighting is the latest. -/
structure Sums (o : Observation) (ps : List Sighting) : Prop where
  record : ∃ p, ps.getLast? = some p ∧
    o.record = { p.record with contentSections := o.record.contentSections }
  find?_sections : ∀ title, o.record.contentSections.find? title =
    ps.reverse.findSome? fun p => p.record.contentSections.find? title
  mem_years : ∀ y, y ∈ o.years ↔ ∃ p ∈ ps, p.year = y
  years_nodup : o.years.Nodup
  years_sublist : o.years.Sublist (ps.map Sighting.year)
  find?_rules : ∀ y, o.rules.find? y =
    (ps.reverse.find? fun p => p.year = y).map fun p => p.record.moduleRules

theorem sums_observe_none (p : Sighting) : (observe p.year p.record none).Sums [p] where
  record := ⟨p, rfl, rfl⟩
  find?_sections title := by
    simp [observe]
  mem_years y := by
    simp [observe, eq_comm]
  years_nodup := by simp [observe]
  years_sublist := by simp [observe]
  find?_rules y := by
    by_cases h : p.year = y
    · subst h
      simp [observe, Dict.find?_insert, ReflCmp.compare_self]
    · have hne : compare y p.year ≠ .eq := fun he => h (LawfulEqOrd.eq_of_compare he).symm
      simp [observe, Dict.find?_insert, h, hne]

theorem sums_observe_some {o : Observation} {ps : List Sighting} (h : o.Sums ps) (p : Sighting) :
    (observe p.year p.record (some o)).Sums (ps ++ [p]) where
  record := ⟨p, by simp, rfl⟩
  find?_sections title := by
    rw [List.reverse_concat, List.findSome?_cons, ← h.find?_sections]
    show (o.record.contentSections.union p.record.contentSections).find? title = _
    rw [Dict.find?_union]
    cases p.record.contentSections.find? title <;> rfl
  -- the last sighting adds its year, unless the year is there already
  mem_years y := by
    simp only [observe, List.mem_append, List.mem_singleton, or_and_right, exists_or,
      exists_eq_left, ← h.mem_years]
    by_cases hp : p.year ∈ o.years
    · rw [if_pos hp]
      exact ⟨.inl, fun hy => hy.elim id fun hpy => hpy ▸ hp⟩
    · rw [if_neg hp, List.mem_append, List.mem_singleton, eq_comm (a := y)]
  years_nodup := by
    simp only [observe]
    split
    · exact h.years_nodup
    · next hp =>
      refine List.nodup_append.mpr ⟨h.years_nodup, by simp, fun a ha b hb hab => ?_⟩
      rw [hab, List.mem_singleton.mp hb] at ha
      exact hp ha
  years_sublist := by
    simp only [observe, List.map_append, List.map_singleton]
    split
    · exact h.years_sublist.trans (List.sublist_append_left ..)
    · exact h.years_sublist.append (List.Sublist.refl _)
  -- the rules of the last sighting come before all earlier ones of its year
  find?_rules y := by
    rw [List.reverse_concat, List.find?_cons]
    show (o.rules.insert p.year p.record.moduleRules).find? y = _
    rw [Dict.find?_insert, h.find?_rules]
    by_cases hy : p.year = y
    · subst hy
      simp [ReflCmp.compare_self]
    · have hne : compare y p.year ≠ .eq := fun he => hy (LawfulEqOrd.eq_of_compare he).symm
      simp [hy, hne]

/-- Sightings, if there are any, come to an observation that holds what they add up to. The
induction is on the list from its end, as that is where a sighting is added. -/
theorem exists_sums {ps : List Sighting} (h : ps ≠ []) :
    ∃ o, ofSightings ps = some o ∧ o.Sums ps := by
  -- the last sighting is the one that was added last, so the induction goes from the right
  suffices hrev : ∀ rs : List Sighting, rs ≠ [] →
      ∃ o, ofSightings rs.reverse = some o ∧ o.Sums rs.reverse by
    simpa using hrev ps.reverse (by simpa using h)
  intro rs
  induction rs with
  | nil => exact fun h => absurd rfl h
  | cons p rs ih =>
    intro _
    -- the first sighting makes an observation, and a further one is added to that of the others
    cases rs with
    | nil => exact ⟨_, rfl, sums_observe_none p⟩
    | cons q rs =>
      obtain ⟨o, ho, hs⟩ := ih (by simp)
      refine ⟨observe p.year p.record (some o), ?_, ?_⟩
      · rw [List.reverse_cons, ofSightings, List.foldl_append, ← ho]
        rfl
      · rw [List.reverse_cons]
        exact sums_observe_some hs p

/-- A merged module keeps rules by year if those of its observation differ, and keeps these. -/
theorem mem_rulesByYear_iff {o : Observation} {e : RulesEquivalence}
    {rules : Dict AcademicYear Json.Value} :
    rules ∈ (o.merged e).rulesByYear ↔ e.differ o.rules.values = true ∧ o.rules = rules := by
  simp only [merged, Option.mem_def]
  split
  · next hd => simp [hd]
  · next hd => simp [hd]

theorem Sums.exists_of_find?_rules {o : Observation} {ps : List Sighting} (h : o.Sums ps)
    {y : AcademicYear} {v : Json.Value} (hv : o.rules.find? y = some v) :
    ∃ p ∈ ps, p.year = y ∧ p.record.moduleRules = v := by
  rw [h.find?_rules, Option.map_eq_some_iff] at hv
  obtain ⟨p, hp, hsame⟩ := hv
  have hyear : p.year = y := by simpa using List.find?_some hp
  exact ⟨p, List.mem_reverse.mp (List.mem_of_find?_eq_some hp), hyear, hsame⟩

/-- The rules that a merged module keeps by year are those of records that were sighted. -/
theorem Sums.exists_of_mem_rulesByYear {o : Observation} {ps : List Sighting} (h : o.Sums ps)
    {e : RulesEquivalence} {rules : Dict AcademicYear Json.Value}
    (hrules : rules ∈ (o.merged e).rulesByYear) {y : AcademicYear} {v : Json.Value}
    (hv : rules.find? y = some v) : ∃ p ∈ ps, p.record.moduleRules = v := by
  obtain ⟨-, rfl⟩ := mem_rulesByYear_iff.mp hrules
  obtain ⟨p, hp, -, hsame⟩ := h.exists_of_find?_rules hv
  exact ⟨p, hp, hsame⟩

/-- Along an ascending walk the years of an observation ascend. -/
theorem Sums.years_ascending {o : Observation} {walk : List Snapshot} {i : Identity}
    (hw : Snapshot.Ascending walk) (h : o.Sums (sightingsOf walk i)) :
    o.years.Pairwise fun y z => compare y z = .lt := by
  have hsorted : ((sightingsOf walk i).map Sighting.year).Pairwise fun y z => (compare y z).isLE :=
    List.pairwise_map.mpr ((sightings_sorted hw).filter _)
  refine ((hsorted.sublist h.years_sublist).and h.years_nodup).imp fun {y z} hyz => ?_
  exact compare_lt_of_isLE hyz.1 hyz.2

end Observation

/-! ### The modules of a walk

There is one module for each identity that was sighted, made of what its sightings come to. With
this the theory of modules becomes one of lists of sightings. -/

/-- The modules of an outcome are the merged observations of the identities that were sighted. -/
theorem mem_ofWalk_modules {e : RulesEquivalence} {walk : List Snapshot} {m : MergedModule} :
    m ∈ (Outcome.ofWalk e walk).modules ↔
      ∃ i o, sightingsOf walk i ≠ [] ∧ Observation.ofSightings (sightingsOf walk i) = some o ∧
        o.Sums (sightingsOf walk i) ∧ m = o.merged e := by
  simp only [Outcome.ofWalk, List.mem_map, Dict.mem_values_iff, Observation.find?_observed]
  constructor
  · -- an observation that is there has been sighted, so its sum is known
    rintro ⟨o, ⟨i, ho⟩, rfl⟩
    have hne : sightingsOf walk i ≠ [] := by
      intro hnil
      rw [hnil] at ho
      cases ho
    obtain ⟨o', ho', hsums⟩ := Observation.exists_sums hne
    obtain rfl := Option.some.inj (ho.symm.trans ho')
    exact ⟨i, o, hne, ho, hsums, rfl⟩
  · rintro ⟨i, o, -, ho, -, rfl⟩
    exact ⟨o, ⟨i, ho⟩, rfl⟩

/-- The identity under which sightings add up is that of the merged module. -/
theorem Observation.Sums.identity {o : Observation} {walk : List Snapshot} {i : Identity}
    (h : o.Sums (sightingsOf walk i)) : o.record.identity = i := by
  obtain ⟨p, hp, hr⟩ := h.record
  have hi : p.record.identity = i := by
    simpa using (List.mem_filter.mp (List.mem_of_getLast? hp)).2
  rw [hr]
  exact hi

end Prospectus
