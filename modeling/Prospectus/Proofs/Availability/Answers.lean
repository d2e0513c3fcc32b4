import Prospectus.Proofs.Availability.Index
import Prospectus.Proofs.Traversal

/-!
# Answers by calendar year

`Answers` says which answer and which basis belong to a target, in terms of the calendar years in
which the module runs and those that were captured. A decision is found in three look-ups

    labels of the module ──▶ captured labels ──▶ captured labels, from the latest on

and `Indexes.answers_resolve` says that what they find is an answer in that sense. The answer itself
is determined by calendar years (`Answers.available_iff`, `Answers.indeterminate_iff`), so neither
the order of labels nor a repeated one changes it, and outside all known years only the place of the
target on the cycle counts (`Indexes.resolve_congr`).
-/

namespace Prospectus

open AcademicYear

/-! ### What the calendar years say

`Answers` has one constructor for each way in which a decision can come about. The hypotheses of
the later constructors repeat that the earlier ones do not apply, so a target has one answer only,
and the inversions below can go case by case. A label appears in a constructor only where the basis
names it; everything else is said of the sets of calendar years, which is what makes the answer
independent of how the labels are spelled and in which order they stand. -/

/-- The answer for a target and what it rests on, when the captured labels are `years` and the
module has the labels `runs`. -/
inductive Answers (years runs : List AcademicYear) (target : Int) (cycle : Nat) :
    Availability → Basis → Prop
  /-- The module is known to run. -/
  | runs {y : AcademicYear} : y ∈ runs → y.startYear? = some target →
      Answers years runs target cycle .available (.captured y)
  /-- The target was captured without the module. -/
  | missing {y : AcademicYear} : target ∉ startYears runs → y ∈ years →
      y.startYear? = some target → Answers years runs target cycle .unavailable (.captured y)
  /-- The module runs in the captured year that stands for the target. -/
  | proxyRuns {y : AcademicYear} {n : Int} : target ∉ startYears runs → target ∉ startYears years →
      IsProxy (startYears years) target cycle n → y ∈ years → y.startYear? = some n →
      n ∈ startYears runs → Answers years runs target cycle .available (.projected y)
  /-- The module does not run in the captured year that stands for the target. -/
  | proxyMissing {y : AcademicYear} {n : Int} : target ∉ startYears runs →
      target ∉ startYears years → IsProxy (startYears years) target cycle n → y ∈ years →
      y.startYear? = some n → n ∉ startYears runs →
      Answers years runs target cycle .unavailable (.projected y)
  /-- No captured year stands for the target. -/
  | noProxy : target ∉ startYears runs → target ∉ startYears years →
      (∀ n ∈ startYears years, ¬ (cycle : Int) ∣ target - n) →
      Answers years runs target cycle .indeterminate .noCongruentCapture

namespace Answers

variable {years runs years' runs' : List AcademicYear} {target : Int} {cycle : Nat}
  {a a' : Availability} {b b' : Basis}

/-- A module runs in a target of its own, or in the proxy of a target that nobody captured. In the
second case the proxy is one, so it does not matter that the statement speaks of some proxy. -/
theorem available_iff (h : Answers years runs target cycle a b) :
    a = .available ↔ target ∈ startYears runs ∨ (target ∉ startYears years ∧
      ∃ n ∈ startYears runs, IsProxy (startYears years) target cycle n) := by
  -- one case for each verdict: it either says that the module runs, or excludes both ways to run
  cases h with
  | @runs y hy hstart => simpa using .inl ⟨y, hy, hstart⟩
  | @missing y hruns hy hstart =>
    have hyears : target ∈ startYears years := ⟨y, hy, hstart⟩
    simp [hruns, hyears]
  | @proxyRuns y n hruns hyears hproxy hy hstart hn =>
    simpa [hruns, hyears] using ⟨n, hn, hproxy⟩
  | @proxyMissing y n hruns hyears hproxy hy hstart hn =>
    simp only [reduceCtorEq, hruns, hyears, not_false_eq_true, true_and, false_or, false_iff]
    rintro ⟨k, hk, hkproxy⟩
    exact hn (hproxy.unique hkproxy ▸ hk)
  | noProxy hruns hyears hnone =>
    simp only [reduceCtorEq, hruns, hyears, not_false_eq_true, true_and, false_or, false_iff]
    rintro ⟨k, -, hk⟩
    exact hnone k hk.1.1 hk.1.2

/-- There is no answer if the target is unknown and no captured year stands for it. -/
theorem indeterminate_iff (h : Answers years runs target cycle a b) :
    a = .indeterminate ↔ target ∉ startYears runs ∧ target ∉ startYears years ∧
      ∀ n ∈ startYears years, ¬ (cycle : Int) ∣ target - n := by
  -- the verdict is open exactly where neither the year nor a proxy for it was captured
  cases h with
  | @runs y hy hstart =>
    have hruns : target ∈ startYears runs := ⟨y, hy, hstart⟩
    simp [hruns]
  | @missing y hruns hy hstart =>
    have hyears : target ∈ startYears years := ⟨y, hy, hstart⟩
    simp [hyears]
  | @proxyRuns y n hruns hyears hproxy hy hstart hn
  | @proxyMissing y n hruns hyears hproxy hy hstart hn =>
    simp only [reduceCtorEq, hruns, hyears, not_false_eq_true, true_and, false_iff]
    exact fun hnone => hnone n hproxy.1.1 hproxy.1.2
  | noProxy hruns hyears hnone => simpa [hruns, hyears] using hnone

/-- Two sets of calendar years settle the answer. Each verdict is determined by one of the two
descriptions above, so two answers for the same sets cannot differ. -/
theorem availability_eq (hyears : startYears years' = startYears years)
    (hruns : startYears runs' = startYears runs) (h : Answers years runs target cycle a b)
    (h' : Answers years' runs' target cycle a' b') : a' = a := by
  have havailable : a' = .available ↔ a = .available := by
    rw [h'.available_iff, h.available_iff, hyears, hruns]
  have hindeterminate : a' = .indeterminate ↔ a = .indeterminate := by
    rw [h'.indeterminate_iff, h.indeterminate_iff, hyears, hruns]
  -- of three answers, the two that are known leave no choice
  cases a <;> cases a' <;> simp_all

end Answers

/-! ### The three look-ups

The decision reads the labels as it goes, and fails at the first one that has no calendar year.
Where all labels have one, reading and deciding come apart: `CaptureIndex.resolve` is the decision
with the reading left out, a function that cannot fail. The lemmas compare it with what the
calendar years say, once for the answer and once for two targets on the same place of the cycle. -/

namespace CaptureIndex

variable {x : CaptureIndex} {m : MergedModule} {years : List AcademicYear} {q : Query}
  {target : Int} {cycle : Nat}

/-- The decision for a target, once all labels were read. -/
def resolve (x : CaptureIndex) (m : MergedModule) (target : Int) (cycle : Nat) : Decision :=
  match m.availableYears.find? fun y => y.startYear? = some target with
  | some year => ⟨.available, target, .captured year⟩
  | none =>
    match x.captured? target with
    | some year => ⟨.unavailable, target, .captured year⟩
    | none =>
      match x.congruentProxy? target cycle with
      | some proxy =>
        let runs := m.availableYears.any fun y => y.startYear? = proxy.startYear?
        ⟨if runs then .available else .unavailable, target, .projected proxy⟩
      | none => ⟨.indeterminate, target, .noCongruentCapture⟩

/-- Looking for a calendar year among labels and their years is looking for it among labels. The
program reads all labels first and keeps the years beside them. -/
theorem find?_zip {ys : List AcademicYear} {ns : List Int}
    (h : List.Forall₂ (fun y n => y.calendarYear = .ok n) ys ns) (target : Int) :
    ((ys.zip ns).find? fun e => e.2 == target).map Prod.fst =
      ys.find? fun y => y.startYear? = some target := by
  induction h with
  | nil => rfl
  | @cons y n ys ns hy _ ih =>
    rw [List.zip_cons_cons, List.find?_cons, List.find?_cons, calendarYear_eq_ok_iff.mp hy, ← ih]
    by_cases hn : n = target
    · simp [hn]
    · simp [hn, beq_eq_false_iff_ne.mpr hn]

/-- Asking whether a calendar year is among those of some labels is asking each label. -/
theorem mem_iff_any {ys : List AcademicYear} {ns : List Int}
    (h : List.Forall₂ (fun y n => y.calendarYear = .ok n) ys ns) (n : Int) :
    n ∈ ns ↔ ys.any (fun y => y.startYear? = some n) = true := by
  induction h with
  | nil => simp
  | @cons y k ys ns hy _ ih =>
    rw [List.mem_cons, ih, List.any_cons, calendarYear_eq_ok_iff.mp hy, Bool.or_eq_true,
      decide_eq_true_eq, Option.some_inj, eq_comm (a := k)]

/-- With all labels dated, a valid query is resolved. -/
theorem decide_eq_resolve (hx : x.Indexes years) (hm : Dated m.availableYears)
    (hc : 1 ≤ q.cycleLength) (ht : targetYear q.entryYear q.studyYear = .ok target) :
    x.decide m q = .ok (x.resolve m target q.cycleLength) := by
  obtain ⟨ns, hns⟩ : ∃ ns, m.availableYears.mapM calendarYear = .ok ns := by
    refine exists_mapM_eq_ok fun y hy => ?_
    obtain ⟨n, hn⟩ := Option.isSome_iff_exists.mp (hm y hy)
    exact ⟨n, calendarYear_eq_ok_iff.mpr hn⟩
  -- the decision pairs the labels with their years first, `resolve` reads each year where it looks
  have hall := mapM_eq_ok_iff.mp hns
  have hcycle : q.cycleLength ≠ 0 := by omega
  have hfind := find?_zip hall target
  simp only [CaptureIndex.decide, hcycle, ↓reduceIte, ht, hns, resolve, ← hfind, bind, Except.bind,
    pure, Except.pure]
  -- the look-ups of the decision are made one after the other, and each may be the last
  cases (m.availableYears.zip ns).find? fun e => e.2 == target with
  | some e => rfl
  | none =>
    cases x.captured? target with
    | some year => rfl
    | none =>
      cases hproxy : x.congruentProxy? target q.cycleLength with
      | none => rfl
      | some proxy =>
        -- the proxy is one of the labels, so it has a year to be compared
        rcases hx.isProxy_or_none target hc with ⟨y, n, hy, hyn, -⟩ | ⟨hnone, -⟩
        · obtain rfl : y = proxy := Option.some.inj (hy.symm.trans hproxy)
          have hstart := (hx.of_captured? hyn).2
          simp [calendarYear_eq_ok_iff.mpr hstart, hstart, mem_iff_any hall]
        · cases hnone.symm.trans hproxy

/-- A decision always is about the target that was asked for. -/
theorem targetYear_resolve : (x.resolve m target cycle).targetYear = target := by
  unfold resolve
  repeat' split
  all_goals rfl

/-- What the look-ups find is the answer that the calendar years give. Each look-up that finds
nothing is a hypothesis of the cases after it. -/
theorem Indexes.answers_resolve (hx : x.Indexes years) (hc : 1 ≤ cycle) :
    Answers years m.availableYears target cycle (x.resolve m target cycle).availability
      (x.resolve m target cycle).basis := by
  unfold resolve
  -- the target year itself, if the module runs in it
  cases hruns : m.availableYears.find? fun y => y.startYear? = some target with
  | some y => exact .runs (List.mem_of_find?_eq_some hruns) (by simpa using List.find?_some hruns)
  | none =>
    have hruns : target ∉ startYears m.availableYears := by
      rintro ⟨y, hy, hstart⟩
      have hnot := List.find?_eq_none.mp hruns y hy
      simp [hstart] at hnot
    -- the target year as a captured one in which the module does not run
    cases hcaptured : x.captured? target with
    | some y =>
      obtain ⟨hy, hstart⟩ := hx.of_captured? hcaptured
      exact .missing hruns hy hstart
    | none =>
      have hyears := hx.captured?_eq_none_iff.mp hcaptured
      -- a captured year on the same place of the cycle stands in for it, if there is one
      rcases hx.isProxy_or_none target hc with ⟨y, n, hfind, hyn, hproxy⟩ | ⟨hfind, hnone⟩
      · obtain ⟨hy, hstart⟩ := hx.of_captured? hyn
        by_cases hn : n ∈ startYears m.availableYears
        · have hany : (m.availableYears.any fun z => z.startYear? = y.startYear?) = true := by
            simpa [hstart, mem_startYears] using hn
          simpa [hfind, hany] using .proxyRuns hruns hyears hproxy hy hstart hn
        · have hany : (m.availableYears.any fun z => z.startYear? = y.startYear?) = false := by
            rw [← Bool.not_eq_true]
            simpa [hstart, mem_startYears] using hn
          simpa [hfind, hany] using .proxyMissing hruns hyears hproxy hy hstart hn
      · simpa [hfind] using .noProxy hruns hyears hnone

/-- Two targets that nobody captured and that lie a whole number of cycles apart are resolved
alike. Neither of the first two look-ups finds anything, and the third depends on the remainder of
the target alone. -/
theorem Indexes.resolve_congr {target' : Int} (hx : x.Indexes years)
    (h : target ∉ startYears m.availableYears ∧ target ∉ startYears years)
    (h' : target' ∉ startYears m.availableYears ∧ target' ∉ startYears years)
    (hc : 1 ≤ cycle) (hdvd : (cycle : Int) ∣ target - target') :
    x.resolve m target' cycle = { x.resolve m target cycle with targetYear := target' } := by
  have hruns : ∀ t, t ∉ startYears m.availableYears →
      (m.availableYears.find? fun y => y.startYear? = some t) = none := by
    intro t ht
    refine List.find?_eq_none.mpr fun y hy hstart => ht ⟨y, hy, by simpa using hstart⟩
  -- the first two look-ups find nothing, and the third asks for the place on the cycle only
  have hproxy : x.congruentProxy? target' cycle = x.congruentProxy? target cycle := by
    have hsame : ∀ n : Int, (target' - n) % max (cycle : Int) 1 = 0 ↔
        (target - n) % max (cycle : Int) 1 = 0 := by
      intro n
      have hmax : max (cycle : Int) 1 = cycle := by omega
      rw [hmax, ← Int.dvd_iff_emod_eq_zero, ← Int.dvd_iff_emod_eq_zero]
      have hsplit : target - n = (target - target') + (target' - n) := by omega
      rw [hsplit, Int.dvd_add_right hdvd]
    simp only [congruentProxy?, beq_eq_decide, hsame]
  simp only [resolve, hruns _ h.1, hruns _ h'.1, hx.captured?_eq_none_iff.mpr h.2,
    hx.captured?_eq_none_iff.mpr h'.2, hproxy]
  cases x.congruentProxy? target cycle <;> rfl

end CaptureIndex

/-! ### Queries

A query gives its target by way of a sum, and the sum may leave the range of calendar years.
`Query.Valid` says when it does not, and then the target is the number that one expects. Everything
said so far is about targets; here it is said of queries. -/

namespace Query

/-- The calendar year that a query is about, as a whole number without bounds. -/
def target (q : Query) : Int := q.entryYear + q.studyYear - 1

/-- A query that has an answer: the cycle and the year of study count from one, and neither the
target nor its distance from the year of entry is beyond the last calendar year. -/
def Valid (q : Query) : Prop :=
  1 ≤ q.cycleLength ∧ 1 ≤ q.studyYear ∧ q.studyYear - 1 ≤ lastCalendarYear ∧
    q.target ≤ lastCalendarYear

instance (q : Query) : Decidable q.Valid := inferInstanceAs (Decidable (_ ∧ _))

theorem Valid.targetYear_eq {q : Query} (h : q.Valid) :
    targetYear q.entryYear q.studyYear = .ok q.target := by
  obtain ⟨-, hstudy, hdistance, htarget⟩ := h
  have heq : q.entryYear + (q.studyYear - 1 : Nat) = q.target := by
    unfold target
    omega
  rw [targetYear, if_neg (by omega)]
  simp only [heq, if_pos (And.intro hdistance htarget)]

end Query

namespace MergedModule

variable {m : MergedModule} {years : List AcademicYear} {q : Query}

/-- The labels have an index, and every valid query is resolved in it. -/
theorem exists_index_availability (hyears : Dated years) (hm : Dated m.availableYears) :
    ∃ x : CaptureIndex, x.Indexes years ∧ ∀ q : Query, q.Valid →
      m.availability years q = .ok (x.resolve m q.target q.cycleLength) := by
  obtain ⟨x, hx, hindex⟩ := CaptureIndex.exists_ofYears hyears
  refine ⟨x, hindex, fun q hq => ?_⟩
  rw [availability, hx]
  exact CaptureIndex.decide_eq_resolve hindex hm hq.1 hq.targetYear_eq

/-- A valid query has the answer that the calendar years give. Another list of captured labels,
another module and another query with the same calendar years, the same target and the same cycle
have that answer too; and another target outside all known years, a whole number of cycles away
from this one, is answered on the same basis. -/
theorem availability_by_calendar_year (hyears : Dated years) (hm : Dated m.availableYears)
    (hq : q.Valid) :
    ∃ d, m.availability years q = .ok d ∧ d.targetYear = q.target ∧
      Answers years m.availableYears q.target q.cycleLength d.availability d.basis ∧
      (∀ (years' : List AcademicYear) (m' : MergedModule) (q' : Query), Dated years' →
        Dated m'.availableYears → q'.Valid → startYears years' = startYears years →
        startYears m'.availableYears = startYears m.availableYears → q'.target = q.target →
        q'.cycleLength = q.cycleLength →
        ∃ d', m'.availability years' q' = .ok d' ∧ d'.availability = d.availability) ∧
      ∀ q' : Query, q'.Valid → q'.cycleLength = q.cycleLength →
        (q.cycleLength : Int) ∣ q.target - q'.target →
        (∀ t ∈ [q.target, q'.target], t ∉ startYears m.availableYears ∧ t ∉ startYears years) →
        m.availability years q' = .ok { d with targetYear := q'.target } := by
  obtain ⟨x, hindex, hresolve⟩ := exists_index_availability hyears hm
  have hanswers : Answers years m.availableYears q.target q.cycleLength _ _ :=
    hindex.answers_resolve hq.1
  refine ⟨_, hresolve q hq, CaptureIndex.targetYear_resolve, hanswers, ?_, ?_⟩
  · -- the verdict is a function of the years, the target and the cycle
    intro years' m' q' hyears' hm' hq' hsame hruns htarget hcycle
    obtain ⟨x', hindex', hresolve'⟩ := exists_index_availability hyears' hm'
    have hanswers' : Answers years' m'.availableYears q'.target q'.cycleLength _ _ :=
      hindex'.answers_resolve hq'.1
    rw [htarget, hcycle] at hanswers'
    refine ⟨_, hresolve' q' hq', ?_⟩
    rw [htarget, hcycle]
    exact hanswers.availability_eq hsame hruns hanswers'
  · -- an uncaptured target is known by its place on the cycle alone
    intro q' hq' hcycle hdvd hout
    rw [hresolve q' hq', hcycle]
    exact congrArg Except.ok
      (hindex.resolve_congr (hout _ (by simp)) (hout _ (by simp)) hq.1 hdvd)

/-- Two labels of one calendar year, and a target two cycles after it. -/
theorem availability_by_calendar_year_projected :
    let years : List AcademicYear := [⟨"2026/7"⟩, ⟨"2025/6"⟩, ⟨"2025/7"⟩]
    let m : MergedModule := ⟨.blank "MTH1" "Year 3", [⟨"2025/7"⟩], none⟩
    let q : Query := ⟨2027, 3, 2⟩
    Dated years ∧ Dated m.availableYears ∧ q.Valid ∧
      ∃ d, m.availability years q = .ok d ∧ d.targetYear = 2029 ∧
        Answers years m.availableYears 2029 2 d.availability d.basis := by
  intro years m q
  have hyears : Dated years := by decide
  have hm : Dated m.availableYears := by decide
  have hq : q.Valid := by decide
  obtain ⟨d, hd, htarget, hanswers, -⟩ := availability_by_calendar_year hyears hm hq
  exact ⟨hyears, hm, hq, d, hd, htarget, hanswers⟩

/-- The year of entry lies so far back that its distance from the target is no calendar year, and
the query has no answer although its target was captured. -/
theorem not_available_far_from_entry :
    let years : List AcademicYear := [⟨"2025/6"⟩]
    let m : MergedModule := ⟨.blank "MTH1" "Year 1", [⟨"2025/6"⟩], none⟩
    let q : Query := ⟨-2147481623, 2147483649, 2⟩
    Dated years ∧ Dated m.availableYears ∧ 1 ≤ q.cycleLength ∧ 1 ≤ q.studyYear ∧
      q.target = 2025 ∧ q.target ∈ startYears m.availableYears ∧
      m.availability years q = .error (.yearOutOfRange q.entryYear q.studyYear) := by
  intro years m q
  exact ⟨by decide, by decide, by decide, by decide, by decide, ⟨⟨"2025/6"⟩, by decide, by decide⟩,
    by decide⟩

end MergedModule

end Prospectus
