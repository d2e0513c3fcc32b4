import Prospectus.Proofs.Rebuild.Coverage
import Prospectus.Proofs.Rebuild.InputOrder

/-!
# Why captures make no catalogue

A rebuild stops at the first of three stages that fails: a pattern cannot be used, two captures
share a label, or the label of a module has no digit. Which patterns can be used is for the dialect
to say (`Scrub.Compiles`), and the theorems here hold in every dialect. Which module is without a
place depends on the order of identities and not on the order of the captures, and neither do fields
that are scrubbed matter nor records that lack a part of their identity.

`PipelineFails` lists the cases, each with its error. `runPipeline_error_iff` says that a rebuild
fails in just these, and `exists_runPipeline_iff` what it takes to succeed; the second follows from
the first, since every way in which one of its conditions fails is a case. Scrubbing comes before
the other two stages, so the cases have to be told from the captures as they were before. They can
be, since scrubbing leaves labels and identities alone (`pipelineFails_map_scrubSnapshot`). -/

namespace Prospectus

open Std Scrub Snapshot

/-! ### Patterns

Blank patterns are left out, and of the others the first that cannot be used is the error. What can
be used is asked of each pattern alone. Literals cannot fail: they are escaped, and a blank one is
left out as well. -/

namespace Scrub

/-- The patterns that count: all that are not blank. -/
def Rules.counted (rules : Rules) : List String :=
  rules.personalPatterns.filter fun p => !decide (Text.IsBlank p)

variable [Pattern.Dialect]

/-- A pattern can be used: it is well-formed, the properties that it names exist, and the dialect
has room for it. The last two are said by the dialect, which is a parameter here and below. -/
def Compiles (p : String) : Prop := ∃ q, Pattern.ofText? p true = some q

/-- The first of some patterns that cannot be used. All before it can, and nothing is asked of those
after it. -/
def FirstInvalid (p : String) (patterns : List String) : Prop :=
  ∃ before after, patterns = before ++ p :: after ∧ ¬ Compiles p ∧ ∀ q ∈ before, Compiles q

theorem FirstInvalid.not_compiles {p : String} {patterns : List String}
    (h : FirstInvalid p patterns) : ¬ ∀ q ∈ patterns, Compiles q := by
  obtain ⟨before, after, rfl, hp, -⟩ := h
  exact fun hall => hp (hall p (by simp))

/-- How a scrubber reads a pattern. -/
def readPattern (p : String) : Except RulesError Pattern :=
  match Pattern.ofText? p true with
  | some q => .ok q
  | none => .error (.invalidPattern p)

theorem exists_readPattern_iff {p : String} : (∃ q, readPattern p = .ok q) ↔ Compiles p := by
  unfold readPattern Compiles
  cases Pattern.ofText? p true <;> simp

theorem readPattern_eq_error_iff {p : String} {e : RulesError} :
    readPattern p = .error e ↔ ¬ Compiles p ∧ e = .invalidPattern p := by
  unfold readPattern Compiles
  cases Pattern.ofText? p true <;> simp [eq_comm]

namespace Scrubber

variable {rules : Rules}

theorem ofRules_eq (rules : Rules) : Scrubber.ofRules rules = (do
    let patterns ← rules.counted.mapM readPattern
    return ⟨(rules.personalLiterals.map fun l => Text.trim l.toList).filter (!·.isEmpty),
      patterns⟩) := rfl

theorem exists_ofRules_iff : (∃ s, Scrubber.ofRules rules = .ok s) ↔
    ∀ p ∈ rules.counted, Compiles p := by
  rw [ofRules_eq]
  constructor
  · rintro ⟨s, hs⟩ p hp
    obtain ⟨patterns, hpatterns, -⟩ := bind_eq_ok_iff.mp hs
    obtain ⟨q, -, hq⟩ := exists_mem_of_mapM_eq_ok hpatterns hp
    exact exists_readPattern_iff.mp ⟨q, hq⟩
  · intro h
    obtain ⟨patterns, hpatterns⟩ :=
      exists_mapM_eq_ok fun p hp => exists_readPattern_iff.mpr (h p hp)
    exact ⟨_, bind_eq_ok_iff.mpr ⟨patterns, hpatterns, rfl⟩⟩

theorem ofRules_eq_error_iff {e : RulesError} : Scrubber.ofRules rules = .error e ↔
    ∃ p, FirstInvalid p rules.counted ∧ e = .invalidPattern p := by
  rw [ofRules_eq, bind_pure_eq_error_iff, mapM_eq_error_iff]
  simp only [readPattern_eq_error_iff, exists_readPattern_iff]
  constructor
  · rintro ⟨before, p, after, heq, ⟨hp, rfl⟩, hbefore⟩
    exact ⟨p, ⟨before, after, heq, hp, hbefore⟩, rfl⟩
  · rintro ⟨p, ⟨before, after, heq, hp, hbefore⟩, rfl⟩
    exact ⟨before, p, after, heq, ⟨hp, rfl⟩, hbefore⟩

end Scrubber

end Scrub

/-! ### Modules without a place

Modules are put in order by their keys, and a module whose label has no digit has none. Keys are
computed in the order of the outcome, which ascends by identity, so the module that is reported has
the least identity of all that have no key. It is told from the captures as the least identity that
occurs in them and has no digit. -/

/-- The label of the year of study has a digit. -/
def Identity.HasDigit (i : Identity) : Prop := ∃ c ∈ i.yearOfStudy.toList, c.isDigit = true

/-- The least identity of some captures whose label has no digit, by code and then by label. It is
independent of the order of the captures and of the records in them. -/
structure LeastUnplaced (i : Identity) (captures : List Snapshot) : Prop where
  occurs : i.OccursIn captures
  noDigit : ¬ i.HasDigit
  least : ∀ j : Identity, j.OccursIn captures → ¬ j.HasDigit → (compare i j).isLE

theorem MergedModule.hasKey_iff_hasDigit {m : MergedModule} : m.HasKey ↔ m.identity.HasDigit :=
  hasKey_iff_exists_digit

theorem MergedModule.sortKey_eq_error_iff {m : MergedModule} {e : PresentationError} :
    m.sortKey = .error e ↔
      ¬ m.HasKey ∧ e = .noStudyYearDigit m.identity.moduleCode m.identity.yearOfStudy := by
  rw [hasKey_iff, studyYear?, sortKey]
  cases studyYearNumber? m.record.yearOfStudy with
  | none => simp [identity, Record.identity, eq_comm]
  | some n => simp

/-- Modules cannot be put in order if one of them has no key. The first such module is the error. -/
theorem present_eq_error_iff {modules : List MergedModule} {e : PresentationError} :
    present modules = .error e ↔ ∃ before m after, modules = before ++ m :: after ∧ ¬ m.HasKey ∧
      e = .noStudyYearDigit m.identity.moduleCode m.identity.yearOfStudy ∧
      ∀ n ∈ before, n.HasKey := by
  have hkey : ∀ m : MergedModule,
      (∃ p, (do return (← m.sortKey, m) : Except PresentationError _) = .ok p) ↔ m.HasKey := by
    intro m
    simp only [bind_eq_ok_iff]
    constructor
    · rintro ⟨-, k, hk, -⟩
      exact ⟨k, hk⟩
    · rintro ⟨k, hk⟩
      exact ⟨(k, m), k, hk, rfl⟩
  rw [present, bind_pure_eq_error_iff, mapM_eq_error_iff]
  simp only [bind_pure_eq_error_iff, MergedModule.sortKey_eq_error_iff, hkey, and_assoc]

/-- Of modules by ascending identity the first one without a key has the least identity. Whichever
stand before it have keys, and those behind it have greater identities. -/
theorem exists_first_iff {modules : List MergedModule}
    (h : modules.Pairwise fun m n => compare m.identity n.identity = .lt) {m : MergedModule} :
    (∃ before after, modules = before ++ m :: after ∧ ¬ m.HasKey ∧ ∀ n ∈ before, n.HasKey) ↔
      m ∈ modules ∧ ¬ m.HasKey ∧
        ∀ n ∈ modules, ¬ n.HasKey → (compare m.identity n.identity).isLE := by
  constructor
  · -- the first one without a key has the least identity among them, since identities ascend
    rintro ⟨before, after, rfl, hm, hbefore⟩
    refine ⟨by simp, hm, fun n hn hnkey => ?_⟩
    obtain ⟨-, hafter, -⟩ := List.pairwise_append.mp h
    rcases List.mem_append.mp hn with hn | hn
    · exact absurd (hbefore n hn) hnkey
    · rcases List.mem_cons.mp hn with rfl | hn
      · exact ReflCmp.isLE_rfl
      · rw [(List.pairwise_cons.mp hafter).1 n hn]
        rfl
  · rintro ⟨hmem, hm, hleast⟩
    obtain ⟨before, after, rfl⟩ := List.append_of_mem hmem
    refine ⟨before, after, rfl, hm, fun n hn => ?_⟩
    -- what stands before `m` has a lesser identity
    by_contra hnkey
    have hlt := (List.pairwise_append.mp h).2.2 n hn m List.mem_cons_self
    have hle := hleast n (List.mem_append_left _ hn) hnkey
    have hgt : compare m.identity n.identity = .gt := OrientedCmp.gt_iff_lt.mpr hlt
    rw [hgt] at hle
    cases hle

/-- The modules of captures are their identities, so the first one without a key has the least
identity without a digit. -/
theorem exists_first_iff_leastUnplaced {captures : List Snapshot} (hd : Distinct captures)
    {i : Identity} :
    (∃ before m after, (Outcome.ofWalk .canonical (walk captures)).modules =
        before ++ m :: after ∧ ¬ m.HasKey ∧ i = m.identity ∧ ∀ n ∈ before, n.HasKey) ↔
      LeastUnplaced i captures := by
  have hagrees := ofWalk_agreesWith .canonical hd.walk_ascending
  -- the modules of the walk stand for the identities that occur, whether or not they have a digit
  have hidentities : ∀ j, (∃ m ∈ (Outcome.ofWalk .canonical (walk captures)).modules,
      m.identity = j) ↔ j.OccursIn captures := by
    intro j
    rw [hagrees.identities, exists_sighting_iff]
    simp only [Identity.OccursIn, (walk_perm captures).mem_iff]
  constructor
  · rintro ⟨before, m, after, heq, hm, rfl, hbefore⟩
    obtain ⟨hmem, -, hleast⟩ :=
      (exists_first_iff hagrees.identities_ascending).mp ⟨before, after, heq, hm, hbefore⟩
    refine ⟨(hidentities _).mp ⟨m, hmem, rfl⟩, fun hdigit => ?_, fun j hj hdigit => ?_⟩
    · exact hm (MergedModule.hasKey_iff_hasDigit.mpr hdigit)
    · obtain ⟨n, hn, rfl⟩ := (hidentities j).mpr hj
      exact hleast n hn fun hkey => hdigit (MergedModule.hasKey_iff_hasDigit.mp hkey)
  · rintro ⟨hoccurs, hdigit, hleast⟩
    obtain ⟨m, hm, rfl⟩ := (hidentities i).mpr hoccurs
    have hkey : ¬ m.HasKey := fun hkey => hdigit (MergedModule.hasKey_iff_hasDigit.mp hkey)
    obtain ⟨before, after, heq, -, hbefore⟩ :=
      (exists_first_iff hagrees.identities_ascending).mpr ⟨hm, hkey, fun n hn hnkey =>
        hleast _ ((hidentities _).mp ⟨n, hn, rfl⟩) fun hdigit =>
          hnkey (MergedModule.hasKey_iff_hasDigit.mpr hdigit)⟩
    exact ⟨before, m, after, heq, hkey, rfl, hbefore⟩

/-- If no label is shared, captures make no catalogue just if some identity that occurs has no
digit, and the least of those is the error. -/
theorem assemble_eq_error_iff {course school : String} {captures : List Snapshot}
    (hd : Distinct captures) {e : PipelineError} :
    assemble course school captures = .error e ↔
      ∃ i, LeastUnplaced i captures ∧
        e = .presentation (.noStudyYearDigit i.moduleCode i.yearOfStudy) := by
  have hcatalog : assemble course school captures =
      (Catalog.build course school (Outcome.ofWalk .canonical (walk captures))).mapError
        .presentation >>= fun c => pure (c, Outcome.ofWalk .canonical (walk captures)) := by
    rw [assemble, reconcile_of_distinct .canonical hd]
    rfl
  -- either stage may fail, and the only error that is left is that of presenting the modules
  rw [hcatalog, bind_pure_eq_error_iff, mapError_eq_error_iff]
  simp only [Catalog.build, bind_pure_eq_error_iff, present_eq_error_iff,
    ← exists_first_iff_leastUnplaced hd]
  constructor
  · rintro ⟨_, ⟨before, m, after, heq, hm, rfl, hbefore⟩, rfl⟩
    exact ⟨m.identity, ⟨before, m, after, heq, hm, rfl, hbefore⟩, rfl⟩
  · rintro ⟨_, ⟨before, m, after, heq, hm, rfl, hbefore⟩, rfl⟩
    exact ⟨_, ⟨before, m, after, heq, hm, rfl, hbefore⟩, rfl⟩

/-! ### The cases

One constructor for each stage, with the success of the earlier stages among its hypotheses. So
there is at most one error for any captures, although several things may be wrong with them. What is
asked of the captures are their labels and the identities that occur; both are the same after
scrubbing, and after dropping the records that lack a part of their identity. -/

/-- The cases in which captures make no catalogue, with the error of each. A case counts only where
those before it do not apply, so at most one of them does, and it determines the error. -/
inductive PipelineFails [Pattern.Dialect] (rules : Rules) (captures : List Snapshot) :
    PipelineError → Prop
  | rules {p : String} (h : FirstInvalid p rules.counted) :
      PipelineFails rules captures (.rules (.invalidPattern p))
  | reconcile {y : AcademicYear} (hrules : ∀ p ∈ rules.counted, Compiles p)
      (h : LeastShared y captures) :
      PipelineFails rules captures (.reconcile (.sharedAcademicYear y))
  | presentation {i : Identity} (hrules : ∀ p ∈ rules.counted, Compiles p)
      (hlabels : Distinct captures) (h : LeastUnplaced i captures) :
      PipelineFails rules captures (.presentation (.noStudyYearDigit i.moduleCode i.yearOfStudy))

variable [Pattern.Dialect] {course school : String} {rules : Rules}
  {captures l l' : List Snapshot} {e : PipelineError}

omit [Pattern.Dialect] in
theorem LeastUnplaced.congr (h : ∀ i : Identity, i.OccursIn l ↔ i.OccursIn l') {i : Identity}
    (hi : LeastUnplaced i l) : LeastUnplaced i l' :=
  ⟨(h i).mp hi.occurs, hi.noDigit, fun j hj => hi.least j ((h j).mpr hj)⟩

/-- What fails is a matter of the labels of the captures and of the identities in them. The patterns
are those of the rules, and do not depend on the captures. -/
theorem PipelineFails.congr (hlabels : l.map academicYear = l'.map academicYear)
    (hidentities : ∀ i : Identity, i.OccursIn l ↔ i.OccursIn l') (h : PipelineFails rules l e) :
    PipelineFails rules l' e := by
  cases h with
  | rules h => exact .rules h
  | reconcile hrules h => exact .reconcile hrules ((leastShared_congr hlabels).mp h)
  | presentation hrules hdistinct h =>
    exact .presentation hrules ((distinct_congr hlabels).mp hdistinct) (h.congr hidentities)

theorem pipelineFails_congr (hlabels : l.map academicYear = l'.map academicYear)
    (hidentities : ∀ i : Identity, i.OccursIn l ↔ i.OccursIn l') :
    PipelineFails rules l e ↔ PipelineFails rules l' e :=
  ⟨.congr hlabels hidentities, .congr hlabels.symm fun i => (hidentities i).symm⟩

/-- Scrubbing leaves labels and identities alone. -/
theorem pipelineFails_map_scrubSnapshot (s : Scrubber) :
    PipelineFails rules (captures.map s.scrubSnapshot) e ↔ PipelineFails rules captures e :=
  pipelineFails_congr (academicYear_map_scrubSnapshot s captures)
    fun _ => s.occursIn_map_scrubSnapshot

/-- The snapshot without the records that lack a part of their identity. -/
def Snapshot.onlyKeyed (d : Snapshot) : Snapshot := { d with modules := d.keyed }

omit [Pattern.Dialect] in
/-- Records that lack a part of their identity are no occurrences of one. -/
theorem occursIn_map_onlyKeyed {i : Identity} :
    i.OccursIn (captures.map Snapshot.onlyKeyed) ↔ i.OccursIn captures := by
  constructor
  · rintro ⟨hi, _, hd, r, hr, rfl⟩
    obtain ⟨d, hmem, rfl⟩ := List.mem_map.mp hd
    exact ⟨hi, d, hmem, r, (List.mem_filter.mp hr).1, rfl⟩
  · rintro ⟨hi, d, hd, r, hr, rfl⟩
    exact ⟨hi, d.onlyKeyed, List.mem_map_of_mem hd, r,
      List.mem_filter.mpr ⟨hr, decide_eq_true hi⟩, rfl⟩

/-- Records that lack a part of their identity have no part in a failure. -/
theorem pipelineFails_map_onlyKeyed :
    PipelineFails rules (captures.map Snapshot.onlyKeyed) e ↔ PipelineFails rules captures e := by
  refine pipelineFails_congr ?_ fun _ => occursIn_map_onlyKeyed
  rw [List.map_map]
  rfl

/-! ### A rebuild

What a rebuild does is put together from its stages, and compared with the cases one by one. There
is no hypothesis on the rules, the captures or the dialect. -/

theorem assemble_error_iff (hrules : ∀ p ∈ rules.counted, Compiles p) :
    assemble course school captures = .error e ↔ PipelineFails rules captures e := by
  constructor
  · intro h
    rcases distinct_or_leastShared captures with hd | ⟨y, hy⟩
    · obtain ⟨i, hi, rfl⟩ := (assemble_eq_error_iff hd).mp h
      exact .presentation hrules hd hi
    · rw [assemble_of_leastShared _ _ hy] at h
      cases h
      exact .reconcile hrules hy
  · intro h
    cases h with
    | rules h => exact absurd hrules h.not_compiles
    | reconcile _ h => exact assemble_of_leastShared course school h
    | presentation _ hd h => exact (assemble_eq_error_iff hd).mpr ⟨_, h, rfl⟩

/-- A rebuild fails in the listed cases and in no other. -/
theorem runPipeline_error_iff :
    runPipeline course school rules captures = .error e ↔ PipelineFails rules captures e := by
  cases hs : Scrubber.ofRules rules with
  | error e' =>
    -- the rules are read first, so their error comes before all others
    obtain ⟨p, hp, rfl⟩ := Scrubber.ofRules_eq_error_iff.mp hs
    constructor
    · intro h
      rw [runPipeline, hs] at h
      cases h
      exact .rules hp
    · intro h
      cases h with
      | rules h =>
        rw [runPipeline, Scrubber.ofRules_eq_error_iff.mpr ⟨_, h, rfl⟩]
        rfl
      | reconcile hrules _ => exact absurd hrules hp.not_compiles
      | presentation hrules _ _ => exact absurd hrules hp.not_compiles
  | ok s =>
    -- with a scrubber the captures are scrubbed, which no later stage notices
    have hrun : runPipeline course school rules captures =
        assemble course school (captures.map s.scrubSnapshot) := by
      rw [runPipeline, hs]
      rfl
    rw [hrun, assemble_error_iff (Scrubber.exists_ofRules_iff.mp ⟨s, hs⟩)]
    exact pipelineFails_map_scrubSnapshot s

/-- In all other cases there is a catalogue. -/
theorem exists_runPipeline_iff : (∃ r, runPipeline course school rules captures = .ok r) ↔
    (∀ p ∈ rules.counted, Compiles p) ∧ Distinct captures ∧
      ∀ i : Identity, i.OccursIn captures → i.HasDigit := by
  constructor
  · rintro ⟨⟨c, o⟩, hr⟩
    obtain ⟨s, hs, hassemble⟩ := runPipeline_eq_ok_iff.mp hr
    obtain ⟨hreconcile, hbuild⟩ := assemble_eq_ok_iff.mp hassemble
    obtain ⟨-, -, -, -, horder⟩ := Catalog.ordered_build hreconcile hbuild
    have hd := (distinct_map_scrubSnapshot s).mp (distinct_of_reconcile hreconcile).1
    refine ⟨Scrubber.exists_ofRules_iff.mp ⟨s, hs⟩, hd, fun i hi => ?_⟩
    -- the catalogue has a module of each identity, and all modules have a key
    obtain ⟨m, hm, rfl⟩ := List.mem_map.mp (((covers_captures hr).1.mem_identities i).mpr hi)
    exact MergedModule.hasKey_iff_hasDigit.mp (horder.1 m hm)
  · rintro ⟨hrules, hlabels, hdigits⟩
    -- any other end would be an error, and its cause is excluded
    cases hr : runPipeline course school rules captures with
    | ok r => exact ⟨r, rfl⟩
    | error e =>
      cases runPipeline_error_iff.mp hr with
      | rules h => exact absurd hrules h.not_compiles
      | reconcile _ h => exact absurd hlabels h.not_distinct
      | presentation _ _ h => exact absurd (hdigits _ h.occurs) h.noDigit

/-- When a rebuild fails, and with which error: at the first pattern that the dialect cannot use; if
there is none, at the least label that captures share; if there is none either, at the least
identity whose label has no digit. Otherwise it succeeds. Records that lack a part of their
identity change nothing about that. -/
theorem runPipeline_fails_exactly (course school : String) (rules : Rules)
    (captures : List Snapshot) :
    (∀ e, runPipeline course school rules captures = .error e ↔ PipelineFails rules captures e) ∧
    ((∃ r, runPipeline course school rules captures = .ok r) ↔
      (∀ p ∈ rules.counted, Compiles p) ∧ Distinct captures ∧
        ∀ i : Identity, i.OccursIn captures → i.HasDigit) ∧
    ∀ e, runPipeline course school rules (captures.map Snapshot.onlyKeyed) = .error e ↔
      runPipeline course school rules captures = .error e := by
  refine ⟨fun e => runPipeline_error_iff, exists_runPipeline_iff, fun e => ?_⟩
  rw [runPipeline_error_iff, runPipeline_error_iff, pipelineFails_map_onlyKeyed]

end Prospectus
