import Prospectus.Proofs.Availability.RulesInForce

/-!
# Refused queries

Where all labels have a calendar year, the query alone says whether it has an answer:
`Query.refusal?` looks at the length of the cycle, then at the year of study and then at the target.
No module makes a difference to that (`CaptureIndex.decide_of_refusal`), but there has to be one. A
query is looked at anew for each module that is listed, and at no other time, so a catalogue refuses
a query exactly if the query is to be refused and some module belongs to its year of study
(`Catalog.refuses_iff`). Of two catalogues one may therefore refuse what the other answers, with an
empty list (`Catalog.not_refused_without_modules`).
-/

namespace Prospectus

open AcademicYear

/-! ### What the query says

Three things are checked for a query, in a fixed order, and none of them needs a module. The same
checks are made again for each module that is asked about; `CaptureIndex.decide_of_refusal` says
that they come before anything that depends on the module, so all modules refuse alike. -/

namespace Query

/-- Why a query has no answer, whatever the module. Of several reasons the first counts, in the
order in which the program checks them. -/
def refusal? (q : Query) : Option AvailabilityError :=
  if q.cycleLength = 0 then some .zeroCycleLength
  else if q.studyYear = 0 then some .zeroStudyYear
  else
    match targetYear q.entryYear q.studyYear with
    | .ok _ => none
    | .error _ => some (.yearOutOfRange q.entryYear q.studyYear)

variable {q : Query}

/-- With a year of study that counts, only the target can be refused. -/
theorem targetYear_eq_error (hstudy : q.studyYear ≠ 0) {e : AvailabilityError}
    (h : targetYear q.entryYear q.studyYear = .error e) :
    e = .yearOutOfRange q.entryYear q.studyYear := by
  rw [targetYear, if_neg hstudy] at h
  simp only at h
  split_ifs at h
  cases h
  rfl

/-- Valid queries are those that pass the three checks. -/
theorem valid_iff : q.Valid ↔ q.cycleLength ≠ 0 ∧ q.studyYear ≠ 0 ∧
    ∃ target, targetYear q.entryYear q.studyYear = .ok target := by
  constructor
  · intro h
    have hcycle : 1 ≤ q.cycleLength := h.1
    have hstudy : 1 ≤ q.studyYear := h.2.1
    exact ⟨by omega, by omega, q.target, h.targetYear_eq⟩
  · rintro ⟨hcycle, hstudy, target, htarget⟩
    rw [targetYear, if_neg hstudy] at htarget
    simp only at htarget
    split_ifs at htarget with hrange
    obtain ⟨hdistance, hlast⟩ := hrange
    refine ⟨by omega, by omega, hdistance, ?_⟩
    unfold Query.target
    omega

/-- A query is refused or valid. -/
theorem refusal?_eq_none_iff : q.refusal? = none ↔ q.Valid := by
  rw [valid_iff, refusal?]
  by_cases hcycle : q.cycleLength = 0
  · simp [hcycle]
  by_cases hstudy : q.studyYear = 0
  · simp [hcycle, hstudy]
  cases targetYear q.entryYear q.studyYear with
  | ok target => simp [hcycle, hstudy]
  | error e => simp [hcycle, hstudy]

end Query

variable {x : CaptureIndex} {m : MergedModule} {q : Query} {e : AvailabilityError}

/-- A refused query is refused for every module, before any label is read. -/
theorem CaptureIndex.decide_of_refusal (h : q.refusal? = some e) : x.decide m q = .error e := by
  unfold Query.refusal? at h
  unfold CaptureIndex.decide
  -- one case for each refusal, in the order in which the checks are made
  split_ifs at h with hcycle hstudy
  · cases h
    rw [if_pos hcycle]
    rfl
  · cases h
    rw [if_neg hcycle, targetYear, if_pos hstudy]
    rfl
  · rw [if_neg hcycle]
    cases htarget : targetYear q.entryYear q.studyYear with
    | ok target =>
      rw [htarget] at h
      cases h
    | error e' =>
      rw [htarget] at h
      cases h
      rw [Query.targetYear_eq_error hstudy htarget]
      rfl

/-! ### What a catalogue refuses

Modules are asked one after the other, and the first refusal ends the listing. So the listing fails
if there is a module to ask. A catalogue without a module for the year of study never asks, and
answers a query that is beyond all sense with an empty list. -/

namespace Catalog

variable {c : Catalog}

/-- Some module of the catalogue belongs to a year of study. Whether it runs in any year is not
asked. -/
def HasStudyYear (c : Catalog) (n : Nat) : Prop := ∃ m ∈ c.modules, m.studyYear? = some n

instance (c : Catalog) (n : Nat) : Decidable (c.HasStudyYear n) :=
  inferInstanceAs (Decidable (∃ m ∈ c.modules, _))

/-- Where no module is listed, no query is refused. -/
theorem modulesForEntry_of_not_hasStudyYear (hyears : Dated c.academicYears)
    (h : ¬ c.HasStudyYear q.studyYear) : c.modulesForEntry q = .ok [] := by
  obtain ⟨x, hx, -⟩ := CaptureIndex.exists_ofYears hyears
  have hnone : (c.modules.filter fun m =>
      studyYearNumber? m.record.yearOfStudy == some q.studyYear) = [] := by
    apply List.filter_eq_nil_iff.mpr
    intro m hm hdigit
    exact h ⟨m, hm, eq_of_beq hdigit⟩
  rw [modulesForEntry, hx]
  show (List.filter _ _).mapM _ = _
  rw [hnone]
  rfl

/-- The first module that is listed meets with the refusal. Its labels are not read before that, so
they make no difference. -/
theorem modulesForEntry_of_refusal (hyears : Dated c.academicYears)
    (h : c.HasStudyYear q.studyYear) (hrefusal : q.refusal? = some e) :
    c.modulesForEntry q = .error e := by
  obtain ⟨x, hx, -⟩ := CaptureIndex.exists_ofYears hyears
  obtain ⟨m, hm, hdigit⟩ := h
  have hmem : m ∈ c.modules.filter fun m =>
      studyYearNumber? m.record.yearOfStudy == some q.studyYear :=
    List.mem_filter.mpr ⟨hm, beq_iff_eq.mpr hdigit⟩
  rw [modulesForEntry, hx]
  show (List.filter _ _).mapM _ = _
  obtain ⟨first, others, hlisted⟩ := List.exists_cons_of_ne_nil (List.ne_nil_of_mem hmem)
  rw [hlisted, List.mapM_cons, CaptureIndex.decide_of_refusal hrefusal]
  rfl

/-- A catalogue refuses for the reason of the query, and for no other. -/
theorem modulesForEntry_eq_error_iff (hyears : Dated c.academicYears)
    (hruns : ∀ m ∈ c.modules, Dated m.availableYears) :
    c.modulesForEntry q = .error e ↔ c.HasStudyYear q.studyYear ∧ q.refusal? = some e := by
  constructor
  · intro h
    have hlists : c.HasStudyYear q.studyYear := by
      by_contra hnot
      cases h.symm.trans (modulesForEntry_of_not_hasStudyYear hyears hnot)
    -- a query that nothing refuses gets its listing, so an error means a refusal
    cases hrefusal : q.refusal? with
    | none =>
      have hvalid : q.Valid := Query.refusal?_eq_none_iff.mp hrefusal
      obtain ⟨x, -, hes⟩ := exists_modulesForEntry hyears hruns hvalid
      cases h.symm.trans hes
    | some e' =>
      have he' : c.modulesForEntry q = .error e' :=
        modulesForEntry_of_refusal hyears hlists hrefusal
      cases h.symm.trans he'
      exact ⟨hlists, rfl⟩
  · rintro ⟨hlists, hrefusal⟩
    exact modulesForEntry_of_refusal hyears hlists hrefusal

/-- A catalogue refuses what the query says is to be refused, provided some module belongs to the
year of study; and it answers everything else. So two catalogues that have modules for the same
years of study refuse the same queries for the same reasons. -/
theorem refuses_iff (hyears : Dated c.academicYears)
    (hruns : ∀ m ∈ c.modules, Dated m.availableYears) (q : Query) :
    (∀ e, c.modulesForEntry q = .error e ↔
      c.HasStudyYear q.studyYear ∧ q.refusal? = some e) ∧
    ((∃ es, c.modulesForEntry q = .ok es) ↔
      c.HasStudyYear q.studyYear → q.refusal? = none) ∧
    ∀ c' : Catalog, Dated c'.academicYears → (∀ m ∈ c'.modules, Dated m.availableYears) →
      (c'.HasStudyYear q.studyYear ↔ c.HasStudyYear q.studyYear) →
      ∀ e, c'.modulesForEntry q = .error e ↔ c.modulesForEntry q = .error e := by
  have hrefuses : ∀ e, c.modulesForEntry q = .error e ↔
      c.HasStudyYear q.studyYear ∧ q.refusal? = some e :=
    fun e => modulesForEntry_eq_error_iff hyears hruns
  refine ⟨hrefuses, ?_, ?_⟩
  · constructor
    · -- what is not refused is listed, whether or not a module has the study year
      rintro ⟨es, hes⟩ hlists
      cases hrefusal : q.refusal? with
      | none => rfl
      | some e => cases hes.symm.trans ((hrefuses e).mpr ⟨hlists, hrefusal⟩)
    · intro h
      cases hes : c.modulesForEntry q with
      | ok es => exact ⟨es, rfl⟩
      | error e =>
        obtain ⟨hlists, hrefusal⟩ := (hrefuses e).mp hes
        cases (h hlists).symm.trans hrefusal
  · -- neither the modules nor the years decide, but whether some module has the study year
    intro c' hyears' hruns' hsame e
    rw [hrefuses e, modulesForEntry_eq_error_iff hyears' hruns', hsame]

/-- A catalogue with one module, of the second year of study. -/
def secondYearCatalog : Catalog :=
  ⟨"", "", [⟨"2025/6"⟩], [⟨.blank "MTH2" "Year 2", [⟨"2025/6"⟩], none⟩]⟩

/-- Of two reasons the length of the cycle comes first. -/
theorem refuses_iff_second_year :
    Dated secondYearCatalog.academicYears ∧
      (∀ m ∈ secondYearCatalog.modules, Dated m.availableYears) ∧
      secondYearCatalog.modulesForEntry ⟨0x7FFFFFFF, 2, 0⟩ = .error .zeroCycleLength ∧
      secondYearCatalog.modulesForEntry ⟨0x7FFFFFFF, 2, 2⟩ =
        .error (.yearOutOfRange 0x7FFFFFFF 2) := by
  have hyears : Dated secondYearCatalog.academicYears := by decide
  have hruns : ∀ m ∈ secondYearCatalog.modules, Dated m.availableYears := by decide
  refine ⟨hyears, hruns, ?_, ?_⟩
  · exact ((refuses_iff hyears hruns _).1 _).mpr ⟨by decide, rfl⟩
  · exact ((refuses_iff hyears hruns _).1 _).mpr ⟨by decide, by decide⟩

/-- A cycle of no years is refused for the second year of study, and passes for the first, as no
module is there to be asked about; a catalogue without modules refuses nothing at all. -/
theorem not_refused_without_modules :
    let empty : Catalog := ⟨"", "", [⟨"2025/6"⟩], []⟩
    Dated secondYearCatalog.academicYears ∧
      (∀ m ∈ secondYearCatalog.modules, Dated m.availableYears) ∧
      secondYearCatalog.modulesForEntry ⟨2025, 2, 0⟩ = .error .zeroCycleLength ∧
      secondYearCatalog.modulesForEntry ⟨2025, 1, 0⟩ = .ok [] ∧
      Dated empty.academicYears ∧ empty.modulesForEntry ⟨2025, 2, 0⟩ = .ok [] ∧
      empty.modulesForEntry ⟨2025, 0, 2⟩ = .ok [] ∧
      targetYear 0x7FFFFFFF 2 = .error (.yearOutOfRange 0x7FFFFFFF 2) ∧
      empty.modulesForEntry ⟨0x7FFFFFFF, 2, 2⟩ = .ok [] := by
  intro empty
  have hnone : ∀ n, ¬ empty.HasStudyYear n := by
    rintro n ⟨m, hm, -⟩
    cases hm
  have hempty : ∀ q, empty.modulesForEntry q = .ok [] :=
    fun q => modulesForEntry_of_not_hasStudyYear (by decide) (hnone _)
  have hyears : Dated secondYearCatalog.academicYears := by decide
  refine ⟨hyears, by decide, ?_, ?_, by decide, hempty _, hempty _, rfl, hempty _⟩
  · exact modulesForEntry_of_refusal hyears (by decide) rfl
  · exact modulesForEntry_of_not_hasStudyYear hyears (by decide)

end Catalog

end Prospectus
