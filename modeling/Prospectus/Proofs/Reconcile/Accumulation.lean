import Mathlib.Data.List.Sort
import Prospectus.Proofs.Reconcile.Reference

/-!
# One more capture

What happens to an outcome when one more snapshot with a label of its own is reconciled
(`Outcome.GrowsTo`): its year is put among the others, all modules stay, and of a module only what
the new snapshot says about it may change. The walk gets one more snapshot somewhere in the middle,

    before ++ after   ⟶   before ++ d :: after

so for each identity the same happens to the list of its sightings. `Observation.Sums` says what an
observation holds in terms of that list alone; its lemmas here compare the two lists field by field,
and `reconcile_growsTo` puts them together.
-/

namespace Prospectus

open Std Snapshot

/-! ### Years with one more

Academic years are kept in ascending order, so a new one goes to its place and not to the end. -/

namespace AcademicYear

/-- A year put into its place among ascending ones. -/
def insertInto (y : AcademicYear) (ys : List AcademicYear) : List AcademicYear :=
  ys.orderedInsert (fun a b => (compare a b).isLE) y

theorem mem_insertInto {y z : AcademicYear} {ys : List AcademicYear} :
    z ∈ y.insertInto ys ↔ z = y ∨ z ∈ ys :=
  List.mem_orderedInsert _

theorem insertInto_ascending {y : AcademicYear} {ys : List AcademicYear}
    (h : ys.Pairwise fun a b => compare a b = .lt) (hy : y ∉ ys) :
    (y.insertInto ys).Pairwise fun a b => compare a b = .lt := by
  induction ys with
  | nil => simp [insertInto]
  | cons z ys ih =>
    obtain ⟨hz, hys⟩ := List.pairwise_cons.mp h
    simp only [List.mem_cons, not_or] at hy
    rw [insertInto, List.orderedInsert_cons]
    split
    · next hle =>
      have hlt : compare y z = .lt := compare_lt_of_isLE hle hy.1
      apply List.pairwise_cons.mpr ⟨_, h⟩
      intro a ha
      rcases List.mem_cons.mp ha with rfl | ha
      · exact hlt
      · exact TransCmp.lt_trans hlt (hz a ha)
    · next hle =>
      have hlt : compare z y = .lt := by
        have htotal := compare_isLE_total y z
        simp only [hle, Bool.false_or] at htotal
        exact compare_lt_of_isLE htotal (Ne.symm hy.1)
      apply List.pairwise_cons.mpr ⟨_, ih hys hy.2⟩
      intro a ha
      rcases mem_insertInto.mp ha with rfl | ha
      · exact hlt
      · exact hz a ha

end AcademicYear

/-! ### What one more capture changes

`MergedModule.GrowsTo` says field by field what may change, and under which condition. A content
section is never lost. Its body may be replaced by that of the new capture, but only if no later
capture has the section; the condition for the other fields is the same, with the module in place of
the section. So a capture that is older than all others can add, and replaces nothing. -/

/-- A snapshot has a record of an identity. -/
def Snapshot.Contains (d : Snapshot) (i : Identity) : Prop := ∃ r ∈ d.modules, r.identity = i

instance (d : Snapshot) (i : Identity) : Decidable (d.Contains i) :=
  inferInstanceAs (Decidable (∃ r ∈ d.modules, _))

/-- What a module of `captures` may become when `d` is captured as well. Each field says what stays,
or what has to be the case if something changes. -/
structure MergedModule.GrowsTo (captures : List Snapshot) (d : Snapshot) (m m' : MergedModule) :
    Prop where
  identity : m'.identity = m.identity
  availableYears : m'.availableYears =
    if d.Contains m.identity then d.academicYear.insertInto m.availableYears else m.availableYears
  /-- Titles stay. A body changes only if the new capture has the title, and is later than all
  that have it. -/
  sections : ∀ title body, m.record.contentSections.find? title = some body →
    ∃ body', m'.record.contentSections.find? title = some body' ∧ (body' ≠ body →
      (∃ r ∈ d.modules, r.identity = m.identity ∧ (r.contentSections.find? title).isSome) ∧
      ∀ c ∈ captures, (∃ r ∈ c.modules, r.identity = m.identity ∧
          (r.contentSections.find? title).isSome) → compare c.academicYear d.academicYear = .lt)
  /-- The other fields change only if the new capture has the module and is the latest. -/
  record : { m'.record with contentSections := m.record.contentSections } ≠ m.record →
    d.Contains m.identity ∧ ∀ y ∈ m.availableYears, compare y d.academicYear = .lt
  /-- Rules by year stay as they are, and only the new year may come to them. -/
  rulesByYear : ∀ rules ∈ m.rulesByYear, rules.find? d.academicYear = none ∧
    ∃ rules' ∈ m'.rulesByYear, ∀ y, y ≠ d.academicYear → rules'.find? y = rules.find? y

/-- What the outcome of `captures` becomes when `d` is captured as well. Modules that only the new
capture has are not spoken of; all others are. -/
structure Outcome.GrowsTo (captures : List Snapshot) (d : Snapshot) (o o' : Outcome) : Prop where
  academicYears : o'.academicYears = d.academicYear.insertInto o.academicYears
  modules : ∀ m ∈ o.modules, ∃ m' ∈ o'.modules, m.GrowsTo captures d m'
  /-- Modules that the new capture does not have are the same before and after. -/
  others : ∀ m : MergedModule, ¬ d.Contains m.identity → (m ∈ o'.modules ↔ m ∈ o.modules)
  skipped : (o'.skipped.filter fun s => s.academicYear ≠ d.academicYear) = o.skipped
  repeated : (o'.repeated.filter fun s => s.academicYear ≠ d.academicYear) = o.repeated

/-! ### The walk with one more snapshot

Sorting puts the new snapshot somewhere, and leaves the others in their order. For an observation
this means new sightings in the middle of the list, all of one year that is new. Each of the lemmas
compares what the two lists come to for one field, and none of them speaks of snapshots. -/

theorem exists_walk_cons (d : Snapshot) (captures : List Snapshot) :
    ∃ before after, walk captures = before ++ after ∧
      walk (d :: captures) = before ++ d :: after := by
  let le (a b : Snapshot) : Bool := (compare a.academicYear b.academicYear).isLE
  have htrans : ∀ a b c, le a b → le b c → le a c := fun _ _ _ => TransCmp.isLE_trans
  have htotal : ∀ a b, le a b || le b a := fun _ _ => compare_isLE_total _ _
  obtain ⟨before, after, hcons, hrest, -⟩ := List.mergeSort_cons htrans htotal d captures
  exact ⟨before, after, hrest, hcons⟩

namespace Observation

section

variable {o o' : Observation} {before new after : List Sighting}

/-- The last record is still the last unless something new comes after it. -/
theorem Sums.record_eq_or (h : o.Sums (before ++ after)) (h' : o'.Sums (before ++ (new ++ after))) :
    { o'.record with contentSections := o.record.contentSections } = o.record ∨
      new ≠ [] ∧ after = [] := by
  obtain ⟨p, hp, hrecord⟩ := h.record
  obtain ⟨p', hp', hrecord'⟩ := h'.record
  have hsame : p' = p → { o'.record with contentSections := o.record.contentSections } =
      o.record := by
    rintro rfl
    rw [hrecord', hrecord]
  by_cases hafter : after = []
  · by_cases hnew : new = []
    · subst hafter hnew
      exact .inl (hsame (Option.some.inj (hp'.symm.trans hp)))
    · exact .inr ⟨hnew, hafter⟩
  · left
    apply hsame
    rw [List.getLast?_append_of_ne_nil _ hafter] at hp
    rw [List.getLast?_append_of_ne_nil _ (by simp [hafter]),
      List.getLast?_append_of_ne_nil _ hafter] at hp'
    exact Option.some.inj (hp'.symm.trans hp)

theorem Sums.sections_eq_or (h : o.Sums (before ++ after))
    (h' : o'.Sums (before ++ (new ++ after))) {title body : String}
    (hbody : o.record.contentSections.find? title = some body) :
    ∃ body', o'.record.contentSections.find? title = some body' ∧ (body' ≠ body →
      (∃ p ∈ new, (p.record.contentSections.find? title).isSome) ∧
        ∀ p ∈ after, p.record.contentSections.find? title = none) := by
  rw [h.find?_sections, List.reverse_append, List.findSome?_append] at hbody
  simp only [h'.find?_sections, List.reverse_append, List.findSome?_append]
  cases hafter : after.reverse.findSome? fun p => p.record.contentSections.find? title with
  | some b =>
    rw [hafter] at hbody
    cases hbody
    exact ⟨body, rfl, fun hne => absurd rfl hne⟩
  | none =>
    rw [hafter, Option.none_or] at hbody
    cases hnew : new.reverse.findSome? fun p => p.record.contentSections.find? title with
    | none => exact ⟨body, by simpa using hbody, fun hne => absurd rfl hne⟩
    | some b' =>
      refine ⟨b', rfl, fun _ => ⟨?_, ?_⟩⟩
      · obtain ⟨p, hp, hb⟩ := List.exists_of_findSome?_eq_some hnew
        exact ⟨p, List.mem_reverse.mp hp, by simp [hb]⟩
      · intro p hp
        exact List.findSome?_eq_none_iff.mp hafter p (List.mem_reverse.mpr hp)

theorem Sums.find?_rules_eq_of_ne (h : o.Sums (before ++ after))
    (h' : o'.Sums (before ++ (new ++ after))) {y z : AcademicYear} (hnew : ∀ p ∈ new, p.year = y)
    (hz : z ≠ y) : o'.rules.find? z = o.rules.find? z := by
  have hnone : (new.reverse.find? fun p => p.year = z) = none := by
    rw [List.find?_eq_none]
    intro p hp
    have hyear := hnew p (List.mem_reverse.mp hp)
    simp [hyear, Ne.symm hz]
  simp only [h.find?_rules, h'.find?_rules, List.reverse_append, List.find?_append, hnone,
    Option.or_none]

/-- Rules by year are kept, and gain at most those of the new year. -/
theorem Sums.rulesByYear_kept {e : RulesEquivalence} (h : o.Sums (before ++ after))
    (h' : o'.Sums (before ++ (new ++ after))) {y : AcademicYear}
    (hold : ∀ p ∈ before ++ after, p.year ≠ y) (hnew : ∀ p ∈ new, p.year = y)
    {rules : Dict AcademicYear Json.Value} (hrules : rules ∈ (o.merged e).rulesByYear) :
    rules.find? y = none ∧
      ∃ rules' ∈ (o'.merged e).rulesByYear, ∀ z, z ≠ y → rules'.find? z = rules.find? z := by
  obtain ⟨hdiffer, rfl⟩ := mem_rulesByYear_iff.mp hrules
  have hsame : ∀ z, z ≠ y → o'.rules.find? z = o.rules.find? z :=
    fun z hz => h.find?_rules_eq_of_ne h' hnew hz
  have hyear : ∀ z v, o.rules.find? z = some v → z ≠ y := by
    intro z v hv
    obtain ⟨p, hp, rfl, -⟩ := h.exists_of_find?_rules hv
    exact hold p hp
  -- the values that differ are of old years, so they are still there
  have hkept : ∀ v ∈ o.rules.values, v ∈ o'.rules.values := by
    intro v hv
    obtain ⟨z, hz⟩ := Dict.mem_values_iff.mp hv
    exact Dict.mem_values_iff.mpr ⟨z, (hsame z (hyear z v hz)).trans hz⟩
  obtain ⟨v, hv, w, hw, hvw⟩ := RulesEquivalence.differ_iff.mp hdiffer
  have hdiffer' := RulesEquivalence.differ_iff.mpr ⟨v, hkept v hv, w, hkept w hw, hvw⟩
  constructor
  · cases hfind : o.rules.find? y with
    | none => rfl
    | some v => exact absurd rfl (hyear _ v hfind)
  · exact ⟨o'.rules, mem_rulesByYear_iff.mpr ⟨hdiffer', rfl⟩, hsame⟩

end

end Observation

/-! ### Modules before and after

From sightings back to snapshots. The sightings before the new ones are of earlier years and those
after it of later ones, which turns the conditions on lists into conditions on labels. -/

section

variable {e : RulesEquivalence} {before after : List Snapshot} {d : Snapshot} {m : MergedModule}

/-- What an outcome has of an identity hangs on the sightings of that identity alone. Sightings of
other identities may come and go. -/
theorem mem_modules_congr {walk walk' : List Snapshot}
    (h : sightingsOf walk m.identity = sightingsOf walk' m.identity) :
    m ∈ (Outcome.ofWalk e walk).modules ↔ m ∈ (Outcome.ofWalk e walk').modules := by
  suffices hmp : ∀ {walk walk' : List Snapshot},
      sightingsOf walk m.identity = sightingsOf walk' m.identity →
      m ∈ (Outcome.ofWalk e walk).modules → m ∈ (Outcome.ofWalk e walk').modules from
    ⟨hmp h, hmp h.symm⟩
  intro walk walk' h hm
  obtain ⟨i, o, hne, ho, hsums, rfl⟩ := mem_ofWalk_modules.mp hm
  have hi : (o.merged e).identity = i := hsums.identity
  rw [hi] at h
  rw [h] at hne ho hsums
  exact mem_ofWalk_modules.mpr ⟨i, o, hne, ho, hsums, rfl⟩

theorem sightingsOf_with (before after : List Snapshot) (d : Snapshot) (i : Identity) :
    sightingsOf (before ++ d :: after) i =
      sightingsOf before i ++ (sightingsOf [d] i ++ sightingsOf after i) := by
  rw [← List.singleton_append, sightingsOf_append, sightingsOf_append]

theorem sightingsOf_singleton_ne_nil_iff {i : Identity} (hi : i.Complete) :
    sightingsOf [d] i ≠ [] ↔ d.Contains i := by
  constructor
  · intro hne
    obtain ⟨p, hp⟩ := List.exists_mem_of_ne_nil _ hne
    obtain ⟨-, c, hc, -, hr, hident⟩ := mem_sightingsOf.mp hp
    obtain rfl := List.mem_singleton.mp hc
    exact ⟨p.record, hr, hident⟩
  · rintro ⟨r, hr, hident⟩
    apply List.ne_nil_of_mem (a := ⟨d.academicYear, r⟩)
    exact mem_sightingsOf.mpr ⟨hi, d, List.mem_singleton_self d, rfl, hr, hident⟩

theorem lt_of_mem_before (h : Ascending (before ++ d :: after)) {c : Snapshot} (hc : c ∈ before) :
    compare c.academicYear d.academicYear = .lt :=
  (List.pairwise_append.mp h).2.2 c hc d List.mem_cons_self

theorem lt_of_mem_after (h : Ascending (before ++ d :: after)) {c : Snapshot} (hc : c ∈ after) :
    compare d.academicYear c.academicYear = .lt :=
  (List.pairwise_cons.mp (List.pairwise_append.mp h).2.1).1 c hc

theorem ne_of_mem_without (h : Ascending (before ++ d :: after)) {c : Snapshot}
    (hc : c ∈ before ++ after) : c.academicYear ≠ d.academicYear := by
  intro heq
  rcases List.mem_append.mp hc with hc | hc
  · exact compare_lt_irrefl _ (heq ▸ lt_of_mem_before h hc)
  · exact compare_lt_irrefl _ (heq ▸ lt_of_mem_after h hc)

theorem ascending_without (h : Ascending (before ++ d :: after)) : Ascending (before ++ after) :=
  h.sublist ((List.sublist_cons_self d after).append_left before)

theorem year_ne_of_mem_sightingsOf (h : Ascending (before ++ d :: after)) {i : Identity}
    {p : Sighting} (hp : p ∈ sightingsOf (before ++ after) i) : p.year ≠ d.academicYear := by
  obtain ⟨-, c, hc, hyear, -⟩ := mem_sightingsOf.mp hp
  exact hyear ▸ ne_of_mem_without h hc

theorem year_of_mem_sightingsOf_singleton {i : Identity} {p : Sighting}
    (hp : p ∈ sightingsOf [d] i) : p.year = d.academicYear := by
  obtain ⟨-, c, hc, hyear, -⟩ := mem_sightingsOf.mp hp
  obtain rfl := List.mem_singleton.mp hc
  exact hyear.symm

/-- A module runs in the new year if the new snapshot has it, and in the years in which it ran
before. -/
theorem mem_availableYears_with (h : Ascending (before ++ d :: after)) {m' : MergedModule}
    (hm : m ∈ (Outcome.ofWalk e (before ++ after)).modules)
    (hm' : m' ∈ (Outcome.ofWalk e (before ++ d :: after)).modules)
    (hident : m'.identity = m.identity) (y : AcademicYear) :
    y ∈ m'.availableYears ↔
      (d.Contains m.identity ∧ y = d.academicYear) ∨ y ∈ m.availableYears := by
  have hold := ofWalk_agreesWith e (ascending_without h)
  have hnew := ofWalk_agreesWith e h
  rw [hnew.mem_availableYears m' hm', hold.mem_availableYears m hm, hident]
  constructor
  · rintro ⟨c, hc, rfl, hr⟩
    -- the snapshot of the year stands before the new one, is the new one, or stands after it
    rcases List.mem_append.mp hc with hc | hc
    · exact .inr ⟨c, List.mem_append_left _ hc, rfl, hr⟩
    · rcases List.mem_cons.mp hc with rfl | hc
      · exact .inl ⟨hr, rfl⟩
      · exact .inr ⟨c, List.mem_append_right _ hc, rfl, hr⟩
  · rintro (⟨hr, rfl⟩ | ⟨c, hc, rfl, hr⟩)
    · exact ⟨d, List.mem_append_right _ List.mem_cons_self, rfl, hr⟩
    · exact ⟨c, List.mem_append.mpr ((List.mem_append.mp hc).imp_right (List.mem_cons_of_mem d)),
        rfl, hr⟩

/-- The years of a module gain the year of a snapshot that has it. Both lists ascend, so it is
enough that they have the same members. -/
theorem availableYears_with (h : Ascending (before ++ d :: after)) {m' : MergedModule}
    (hm : m ∈ (Outcome.ofWalk e (before ++ after)).modules)
    (hm' : m' ∈ (Outcome.ofWalk e (before ++ d :: after)).modules)
    (hident : m'.identity = m.identity) :
    m'.availableYears = if d.Contains m.identity then d.academicYear.insertInto m.availableYears
      else m.availableYears := by
  have hold := ofWalk_agreesWith e (ascending_without h)
  have hnew := ofWalk_agreesWith e h
  have hmem := mem_availableYears_with h hm hm' hident
  -- the new year is not among the old ones, so inserting it keeps them ascending
  have hlabel : d.academicYear ∉ m.availableYears := by
    intro hmem
    obtain ⟨c, hc, hyear, -⟩ := (hold.mem_availableYears m hm _).mp hmem
    exact ne_of_mem_without h hc hyear
  split
  · next hd =>
    apply eq_of_ascending (hnew.availableYears_ascending m' hm')
      (AcademicYear.insertInto_ascending (hold.availableYears_ascending m hm) hlabel)
    intro y
    rw [hmem, AcademicYear.mem_insertInto]
    simp [hd]
  · next hd =>
    apply eq_of_ascending (hnew.availableYears_ascending m' hm')
      (hold.availableYears_ascending m hm)
    intro y
    rw [hmem]
    simp [hd]

/-- What a module was made from and what it is made from now. That it is still there needs only
that none of its sightings went away. -/
theorem exists_observation_with (d : Snapshot)
    (hm : m ∈ (Outcome.ofWalk e (before ++ after)).modules) :
    ∃ o o' : Observation, o.merged e = m ∧
      o.Sums (sightingsOf before m.identity ++ sightingsOf after m.identity) ∧
      o'.Sums (sightingsOf before m.identity ++
        (sightingsOf [d] m.identity ++ sightingsOf after m.identity)) ∧
      o'.merged e ∈ (Outcome.ofWalk e (before ++ d :: after)).modules ∧
      (o'.merged e).identity = m.identity := by
  obtain ⟨hne, o, hsums, hmo⟩ := sums_of_mem_modules hm
  have hne' : sightingsOf (before ++ d :: after) m.identity ≠ [] := by
    rw [sightingsOf_append] at hne
    rw [sightingsOf_with]
    intro hnil
    simp only [List.append_eq_nil_iff] at hnil
    exact hne (by rw [hnil.1, hnil.2.2, List.append_nil])
  obtain ⟨o', ho', hsums'⟩ := Observation.exists_sums hne'
  have hm' : o'.merged e ∈ (Outcome.ofWalk e (before ++ d :: after)).modules :=
    mem_ofWalk_modules.mpr ⟨_, o', hne', ho', hsums', rfl⟩
  have hident : (o'.merged e).identity = m.identity := hsums'.identity
  rw [sightingsOf_append] at hsums
  rw [sightingsOf_with] at hsums'
  exact ⟨o, o', hmo.symm, hsums, hsums', hm', hident⟩

section

variable {i : Identity} {o o' : Observation}
  (hsums : o.Sums (sightingsOf before i ++ sightingsOf after i))
  (hsums' : o'.Sums (sightingsOf before i ++ (sightingsOf [d] i ++ sightingsOf after i)))

include hsums hsums'

/-- A content section keeps its body unless the new capture has the title, and every old capture
that has it is earlier. -/
theorem sections_with {captures : List Snapshot} (hcaptures : (before ++ after).Perm captures)
    (h : Ascending (before ++ d :: after)) (hi : i.Complete) {title body : String}
    (hbody : o.record.contentSections.find? title = some body) :
    ∃ body', o'.record.contentSections.find? title = some body' ∧ (body' ≠ body →
      (∃ r ∈ d.modules, r.identity = i ∧ (r.contentSections.find? title).isSome) ∧
      ∀ c ∈ captures,
        (∃ r ∈ c.modules, r.identity = i ∧ (r.contentSections.find? title).isSome) →
          compare c.academicYear d.academicYear = .lt) := by
  obtain ⟨body', hbody', hchange⟩ := hsums.sections_eq_or hsums' hbody
  refine ⟨body', hbody', fun hne => ?_⟩
  obtain ⟨⟨p, hp, htitle⟩, hafter⟩ := hchange hne
  obtain ⟨-, c, hc, -, hr, hpi⟩ := mem_sightingsOf.mp hp
  obtain rfl := List.mem_singleton.mp hc
  refine ⟨⟨p.record, hr, hpi, htitle⟩, ?_⟩
  rintro c' hc' ⟨r, hr', hri, hsome⟩
  rcases List.mem_append.mp (hcaptures.mem_iff.mpr hc') with hc' | hc'
  · exact lt_of_mem_before h hc'
  · -- a later capture with the title would have given the body
    have hnone := hafter ⟨c'.academicYear, r⟩
      (mem_sightingsOf.mpr ⟨hi, c', hc', rfl, hr', hri⟩)
    rw [hnone] at hsome
    cases hsome

/-- The other fields stay unless the new capture has the module and is later than all others that
have it. -/
theorem record_with (h : Ascending (before ++ d :: after)) (hi : i.Complete)
    (hne : { o'.record with contentSections := o.record.contentSections } ≠ o.record) :
    d.Contains i ∧ ∀ y ∈ o.years, compare y d.academicYear = .lt := by
  rcases hsums.record_eq_or hsums' with hsame | ⟨hnew, hnil⟩
  · exact absurd hsame hne
  · refine ⟨(sightingsOf_singleton_ne_nil_iff hi).mp hnew, fun y hy => ?_⟩
    -- nothing comes after the new capture, so every year of the module is one before it
    obtain ⟨p, hp, rfl⟩ := (hsums.mem_years y).mp hy
    rw [hnil, List.append_nil] at hp
    obtain ⟨-, c, hc, hyear, -⟩ := mem_sightingsOf.mp hp
    exact hyear ▸ lt_of_mem_before h hc

end

/-- Every module of a walk is there when one more snapshot stands in it, and has grown. -/
theorem exists_growsTo {captures : List Snapshot} (hcaptures : (before ++ after).Perm captures)
    (h : Ascending (before ++ d :: after))
    (hm : m ∈ (Outcome.ofWalk e (before ++ after)).modules) :
    ∃ m' ∈ (Outcome.ofWalk e (before ++ d :: after)).modules, m.GrowsTo captures d m' := by
  have hcomplete := complete_of_mem_modules hm
  obtain ⟨o, o', rfl, hsums, hsums', hm', hident⟩ := exists_observation_with d hm
  refine ⟨o'.merged e, hm', {
    identity := hident
    availableYears := availableYears_with h hm hm' hident
    sections := fun _ _ hbody => sections_with hsums hsums' hcaptures h hcomplete hbody
    record := record_with hsums hsums' h hcomplete
    rulesByYear := fun _ hrules => hsums.rulesByYear_kept hsums' ?_ ?_ hrules }⟩
  · -- the old sightings are of other years
    intro p hp
    rw [← sightingsOf_append] at hp
    exact year_ne_of_mem_sightingsOf h hp
  · -- the new ones are of the new year
    exact fun _ => year_of_mem_sightingsOf_singleton

/-! ### Outcomes before and after

The lists of skipped records and of repeated identities are made snapshot by snapshot, each entry
under the label of its snapshot. Without the entries of the new label, they are as before. -/

theorem Snapshot.year_of_mem_skipped {c : Snapshot} {s : SkippedRecord} (hs : s ∈ c.skipped) :
    s.academicYear = c.academicYear := by
  simp only [skipped, List.mem_filterMap, Option.map_eq_some_iff] at hs
  obtain ⟨-, -, -, -, rfl⟩ := hs
  rfl

theorem Snapshot.year_of_mem_repeated {c : Snapshot} {s : RepeatedIdentity} (hs : s ∈ c.repeated) :
    s.academicYear = c.academicYear := by
  simp only [repeated, List.mem_filterMap] at hs
  obtain ⟨x, -, hx⟩ := hs
  split at hx
  · cases hx
    rfl
  · cases hx

/-- What is listed snapshot by snapshot, each item under the year of its snapshot, is the same
before and after but for the new year. It serves for skipped records and for repeated identities. -/
theorem filter_flatMap_with {α : Type _} {f : Snapshot → List α} {year : α → AcademicYear}
    (hf : ∀ c, ∀ x ∈ f c, year x = c.academicYear) (h : Ascending (before ++ d :: after)) :
    (((before ++ d :: after).flatMap f).filter fun x => year x ≠ d.academicYear) =
      (before ++ after).flatMap f := by
  have hold : (((before ++ after).flatMap f).filter fun x => year x ≠ d.academicYear) =
      (before ++ after).flatMap f := by
    apply List.filter_eq_self.mpr
    intro x hx
    obtain ⟨c, hc, hx⟩ := List.mem_flatMap.mp hx
    rw [hf c x hx]
    exact decide_eq_true (ne_of_mem_without h hc)
  have hnew : ((f d).filter fun x => year x ≠ d.academicYear) = [] := by
    apply List.filter_eq_nil_iff.mpr
    intro x hx
    simp [hf d x hx]
  rw [← hold]
  simp only [List.flatMap_append, List.flatMap_cons, List.filter_append, hnew, List.nil_append]

theorem ofWalk_growsTo {captures : List Snapshot} (hcaptures : (before ++ after).Perm captures)
    (h : Ascending (before ++ d :: after)) :
    (Outcome.ofWalk e (before ++ after)).GrowsTo captures d
      (.ofWalk e (before ++ d :: after)) where
  academicYears := by
    have hold := (ofWalk_agreesWith e (ascending_without h)).academicYears_ascending
    have hnew := (ofWalk_agreesWith e h).academicYears_ascending
    have hlabel : d.academicYear ∉ (before ++ after).map academicYear := by
      intro hmem
      obtain ⟨c, hc, hyear⟩ := List.mem_map.mp hmem
      exact ne_of_mem_without h hc hyear
    apply eq_of_ascending hnew (AcademicYear.insertInto_ascending hold hlabel)
    intro y
    rw [AcademicYear.mem_insertInto]
    simp only [Outcome.ofWalk, List.map_append, List.map_cons, List.mem_append, List.mem_cons]
    exact or_left_comm
  modules m hm := exists_growsTo hcaptures h hm
  others m hm := by
    by_cases hcomplete : m.identity.Complete
    · apply mem_modules_congr
      have hnil : sightingsOf [d] m.identity = [] := by
        by_contra hne
        exact hm ((sightingsOf_singleton_ne_nil_iff hcomplete).mp hne)
      rw [sightingsOf_with, hnil, List.nil_append, sightingsOf_append]
    · constructor
      · intro hmem
        exact absurd (complete_of_mem_modules hmem) hcomplete
      · intro hmem
        exact absurd (complete_of_mem_modules hmem) hcomplete
  skipped := filter_flatMap_with (fun _ _ => Snapshot.year_of_mem_skipped) h
  repeated := filter_flatMap_with (fun _ _ => Snapshot.year_of_mem_repeated) h

end

/-- Reconciling one more snapshot with a label of its own, wherever it stands, keeps what was there
and adds what it says. -/
theorem reconcile_growsTo (e : RulesEquivalence) {captures captures' : List Snapshot} {d : Snapshot}
    (hperm : captures'.Perm (d :: captures)) (hd : Distinct captures') :
    ∃ o o', reconcile e captures = .ok o ∧ reconcile e captures' = .ok o' ∧
      o.GrowsTo captures d o' := by
  obtain ⟨before, after, hwalk, hwalk'⟩ := exists_walk_cons d captures
  have hd' : Distinct (d :: captures) := hd.perm hperm
  have hascending : Ascending (before ++ d :: after) := hwalk' ▸ hd'.walk_ascending
  have hcaptures : (before ++ after).Perm captures := hwalk ▸ walk_perm captures
  have hdistinct : Distinct captures := (ascending_without hascending).distinct.perm hcaptures
  refine ⟨.ofWalk e (before ++ after), .ofWalk e (before ++ d :: after), ?_, ?_, ?_⟩
  · rw [reconcile_of_distinct e hdistinct, hwalk]
  · rw [reconcile_perm e hperm, reconcile_of_distinct e hd', hwalk']
  · exact ofWalk_growsTo hcaptures hascending

/-- Two captures whose rules differ and that share a content section. -/
def outerCaptures : List Snapshot :=
  [⟨"", ⟨"2027/8"⟩, "", none, [{ Record.blank "MTH1" "Year 1" with
      moduleRules := .text "new", contentSections := .ofList [("Aims", "limits")] }]⟩,
    ⟨"", ⟨"2025/6"⟩, "", none, [.blank "" "Year 1", { Record.blank "MTH1" "Year 1" with
      moduleRules := .text "old", contentSections := .ofList [("Books", "one")] }]⟩]

/-- A capture between them with both content sections and a module twice. -/
def innerCapture : Snapshot :=
  ⟨"", ⟨"2026/7"⟩, "", none, [.blank "MTH2" "Year 2", .blank "MTH2" "Year 2",
    { Record.blank "MTH1" "Year 1" with
      contentSections := .ofList [("Aims", "groups"), ("Books", "two")] }]⟩

theorem reconcile_growsTo_between :
    (outerCaptures ++ [innerCapture]).Perm (innerCapture :: outerCaptures) ∧
      Distinct (outerCaptures ++ [innerCapture]) ∧
      ∃ o o', reconcile .canonical outerCaptures = .ok o ∧
        reconcile .canonical (outerCaptures ++ [innerCapture]) = .ok o' ∧
        o.GrowsTo outerCaptures innerCapture o' := by
  have hperm : (outerCaptures ++ [innerCapture]).Perm (innerCapture :: outerCaptures) :=
    List.perm_append_singleton innerCapture outerCaptures
  have hd : Distinct (outerCaptures ++ [innerCapture]) := by decide
  exact ⟨hperm, hd, reconcile_growsTo .canonical hperm hd⟩

end Prospectus
