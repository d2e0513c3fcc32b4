import Mathlib.Order.Bounds.Basic
import Prospectus.Availability.Decision

/-!
# What the index of captured years holds

The index keeps one label for each calendar year, the first one of the list that starts in it
(`Indexes`). Its keys ascend, so going through it from the end meets the latest
calendar year first, and `congruentProxy?` finds the label of the greatest captured year that lies
a whole number of cycles away from the target (`Indexes.isProxy_or_none`).
-/

namespace Prospectus

open Std

/-! ### Labels with a calendar year

A label without digits has no calendar year, and neither has one whose digits are beyond the range.
The captured labels of a catalogue and the labels of each module are asked to have one, `Dated`,
wherever an answer is promised. -/

namespace AcademicYear

/-- Reading a label as a calendar year and reading its leading digits is one thing, errors apart. -/
theorem calendarYear_eq_ok_iff {y : AcademicYear} {n : Int} :
    y.calendarYear = .ok n ↔ y.startYear? = some n := by
  unfold calendarYear
  cases y.startYear? <;> simp

/-- All labels of a list have a calendar year in front. Labels without one are refused when they are
read, so this is what an answer about the list presupposes. -/
def Dated (years : List AcademicYear) : Prop := ∀ y ∈ years, y.startYear?.isSome

instance (years : List AcademicYear) : Decidable (Dated years) :=
  inferInstanceAs (Decidable (∀ y ∈ years, _))

/-- The calendar years in which the academic years of a list start. As a set it forgets the order of
the labels, and how many of them start in one year. -/
def startYears (years : List AcademicYear) : Set Int := {n | ∃ y ∈ years, y.startYear? = some n}

/-- The calendar years of a list are those of its labels, whichever of several labels has them. -/
theorem mem_startYears {years : List AcademicYear} {n : Int} :
    n ∈ startYears years ↔ ∃ y ∈ years, y.startYear? = some n :=
  Iff.rfl

end AcademicYear

open AcademicYear

/-- The greatest captured year that lies a whole number of cycles away from the target, before or
after it. There is none if no captured year is on the place of the target in the cycle. -/
def IsProxy (captured : Set Int) (target : Int) (cycle : Nat) (year : Int) : Prop :=
  IsGreatest {y | y ∈ captured ∧ (cycle : Int) ∣ target - y} year

/-- There is one proxy at most, as there is one greatest element. -/
theorem IsProxy.unique {captured : Set Int} {target : Int} {cycle : Nat} {y z : Int}
    (hy : IsProxy captured target cycle y) (hz : IsProxy captured target cycle z) : y = z :=
  IsGreatest.unique hy hz

namespace CaptureIndex

/-! ### Building the index

Labels are inserted one after the other, and a calendar year that is taken stays as it is. The
induction is on the labels that are left, with any dictionary at all for what was inserted before
them; `Indexes` then says of the whole list what a look-up in the result gives. -/

/-- At each calendar year the index holds the first label of the list that starts in it. Of the list
nothing else can be told from the index. -/
def Indexes (x : CaptureIndex) (years : List AcademicYear) : Prop :=
  ∀ n, x.captured? n = years.find? fun y => y.startYear? = some n

/-- Going on from what the index already holds, labels of calendar years that it has change
nothing. The other calendar years get the first label of the rest that starts in them. -/
theorem foldlM_alter {years : List AcademicYear} (h : Dated years) (d : Dict Int AcademicYear) :
    ∃ d', years.foldlM (fun d y => return d.alter (← y.calendarYear) fun first => first.getD y) d =
        .ok (ε := AvailabilityError) d' ∧
      ∀ n, d'.find? n = (d.find? n).or (years.find? fun y => y.startYear? = some n) := by
  -- what the index holds comes before all labels of the list, the head before the others
  induction years generalizing d with
  | nil => exact ⟨d, rfl, fun n => by simp⟩
  | cons y years ih =>
    obtain ⟨hy, hyears⟩ := List.forall_mem_cons.mp h
    obtain ⟨k, hk⟩ := Option.isSome_iff_exists.mp hy
    obtain ⟨d', hd', hfind⟩ := ih hyears (d.alter k fun first => first.getD y)
    refine ⟨d', ?_, fun n => ?_⟩
    · rw [List.foldlM_cons, calendarYear_eq_ok_iff.mpr hk]
      exact hd'
    · rw [hfind, Dict.find?_alter, List.find?_cons, hk]
      -- the label of the head fills its year only if none stands there yet
      by_cases hn : k = n
      · subst hn
        cases d.find? k <;> simp [ReflCmp.compare_self]
      · have hne : compare n k ≠ .eq := fun heq => hn (LawfulEqOrd.eq_of_compare heq).symm
        simp [hne, hn]

/-- Labels that all have a calendar year have an index. -/
theorem exists_ofYears {years : List AcademicYear} (h : Dated years) :
    ∃ x, ofYears years = .ok x ∧ x.Indexes years := by
  obtain ⟨d, hd, hfind⟩ := foldlM_alter h ∅
  refine ⟨⟨d⟩, ?_, fun n => ?_⟩
  · rw [ofYears, hd]
    rfl
  · rw [captured?, hfind, Dict.find?_empty, Option.none_or]

/-! ### Looking into the index

What is found comes from the list and has the calendar year that was asked for. For the proxy the
entries are gone through from the end. They ascend, so the first that lies on the cycle is the
greatest of all that do. -/

variable {x : CaptureIndex} {years : List AcademicYear}

/-- What stands in the index is a label of the list, at its own calendar year. -/
theorem Indexes.of_captured? (h : x.Indexes years) {n : Int} {y : AcademicYear}
    (hy : x.captured? n = some y) : y ∈ years ∧ y.startYear? = some n := by
  rw [h n] at hy
  exact ⟨List.mem_of_find?_eq_some hy, by simpa using List.find?_some hy⟩

/-- The index has nothing at the calendar years in which no label starts. -/
theorem Indexes.captured?_eq_none_iff (h : x.Indexes years) {n : Int} :
    x.captured? n = none ↔ n ∉ startYears years := by
  rw [h n, List.find?_eq_none]
  simp [mem_startYears]

/-- The index has a label at each calendar year in which one starts. -/
theorem Indexes.exists_captured? (h : x.Indexes years) {n : Int} (hn : n ∈ startYears years) :
    ∃ y, x.captured? n = some y := by
  cases hx : x.captured? n with
  | none => exact absurd hn (h.captured?_eq_none_iff.mp hx)
  | some y => exact ⟨y, rfl⟩

/-- From the end of an ascending list, what is found first is greatest. -/
theorem le_of_find?_reverse {es : List (Int × AcademicYear)} {p : Int × AcademicYear → Bool}
    {e : Int × AcademicYear} (hasc : es.Pairwise fun a b => compare a.1 b.1 = .lt)
    (he : es.reverse.find? p = some e) : ∀ e' ∈ es, p e' = true → e'.1 ≤ e.1 := by
  obtain ⟨-, as, bs, hsplit, has⟩ := List.find?_eq_some_iff_append.mp he
  intro e' he' hp
  have hmem : e' ∈ as ++ e :: bs := hsplit ▸ List.mem_reverse.mpr he'
  rw [← List.reverse_reverse es, hsplit, List.pairwise_reverse] at hasc
  obtain ⟨-, htail, -⟩ := List.pairwise_append.mp hasc
  rcases List.mem_append.mp hmem with hmem | hmem
  · -- what comes after the hit in key order is passed over because it does not satisfy `p`
    have := has e' hmem
    simp [hp] at this
  · rcases List.mem_cons.mp hmem with rfl | hmem
    · exact Int.le_refl _
    · have hlt := (List.pairwise_cons.mp htail).1 e' hmem
      rw [Int.compare_eq_lt] at hlt
      omega

/-- The proxy is the label of the latest captured year on the same place of the cycle. If there is
no such year, nothing is found, and then no captured year lies on that place. -/
theorem Indexes.isProxy_or_none (h : x.Indexes years) (target : Int) {cycle : Nat}
    (hc : 1 ≤ cycle) :
    (∃ y n, x.congruentProxy? target cycle = some y ∧ x.captured? n = some y ∧
        IsProxy (startYears years) target cycle n) ∨
      (x.congruentProxy? target cycle = none ∧
        ∀ n ∈ startYears years, ¬ (cycle : Int) ∣ target - n) := by
  have hmax : max (cycle : Int) 1 = cycle := by omega
  have hkey : ∀ {n y}, (n, y) ∈ x.captured.entries ↔ x.captured? n = some y :=
    Dict.mem_entries_iff
  have hcaptured : ∀ n ∈ startYears years, ∃ y, (n, y) ∈ x.captured.entries := by
    intro n hn
    obtain ⟨y, hy⟩ := h.exists_captured? hn
    exact ⟨y, hkey.mpr hy⟩
  simp only [congruentProxy?, hmax]
  cases hfind : x.captured.entries.reverse.find? fun e => (target - e.1) % (cycle : Int) == 0 with
  | none =>
    refine .inr ⟨rfl, fun n hn hdvd => ?_⟩
    obtain ⟨y, hy⟩ := hcaptured n hn
    have hnot := List.find?_eq_none.mp hfind (n, y) (List.mem_reverse.mpr hy)
    exact hnot (by simpa using Int.emod_eq_zero_of_dvd hdvd)
  | some e =>
    obtain ⟨n, y⟩ := e
    have hmem : (n, y) ∈ x.captured.entries :=
      List.mem_reverse.mp (List.mem_of_find?_eq_some hfind)
    have hn := hkey.mp hmem
    refine .inl ⟨y, n, rfl, hn, ⟨⟨y, h.of_captured? hn⟩, ?_⟩, ?_⟩
    · have hzero := List.find?_some hfind
      exact Int.dvd_of_emod_eq_zero (by simpa using hzero)
    · -- it is the latest one: a captured year on the same place would have been met before it
      rintro k ⟨hk, hdvd⟩
      obtain ⟨z, hz⟩ := hcaptured k hk
      exact le_of_find?_reverse x.captured.ascending hfind (k, z) hz
        (by simpa using Int.emod_eq_zero_of_dvd hdvd)

end CaptureIndex

end Prospectus
