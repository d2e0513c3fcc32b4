import Mathlib.Data.List.Find
import Prospectus.Proofs.Availability.Refusals

/-!
# Calendar years in words

Calendar years are words of 32 bits with a sign. The target of a query is found if it is one, and if
its distance from the year of entry is one too (`Query.targetYear_eq`). The second condition is more
than the target asks for: where the entry lies far back, the target may be a calendar year although
the distance is none (`Query.not_targetYear_far_distance`). What comes after the target is done in
words of 64 bits, where there is room for every difference of calendar years and for every cycle. So
the look-up in words finds what the look-up in whole numbers finds
(`CaptureIndex.congruentProxyInWords?_eq`).
-/

namespace Prospectus

open AcademicYear

/-! ### Calendar years

The target is computed in two steps, a difference and a sum, and each is checked for its range. As
the year of study counts from one, the distance is not negative, and the target is not below the
year of entry; that leaves two bounds to check of the four. -/

/-- A calendar year has 32 bits with a sign. -/
def IsCalendarYear (n : Int) : Prop := -(lastCalendarYear : Int) - 1 ≤ n ∧ n ≤ lastCalendarYear

instance (n : Int) : Decidable (IsCalendarYear n) := inferInstanceAs (Decidable (_ ∧ _))

/-- A label has a calendar year only if the number in front fits the word. -/
theorem AcademicYear.isCalendarYear_of_startYear? {y : AcademicYear} {n : Int}
    (h : y.startYear? = some n) : IsCalendarYear n := by
  obtain ⟨k, -, hk⟩ := Option.bind_eq_some_iff.mp h
  split_ifs at hk with hlast
  cases hk
  constructor
  · omega
  · omega

namespace Query

/-- The target of a query is a calendar year, and so is its distance from the year of entry. -/
def InRange (q : Query) : Prop := IsCalendarYear q.target ∧ IsCalendarYear (q.studyYear - 1)

instance (q : Query) : Decidable q.InRange := inferInstanceAs (Decidable (_ ∧ _))

/-- A target does not lie before the year of entry, so it is out of range on one side only. -/
theorem targetYear_eq {q : Query} (hentry : IsCalendarYear q.entryYear) (hstudy : 1 ≤ q.studyYear) :
    targetYear q.entryYear q.studyYear =
      if q.InRange then .ok q.target else .error (.yearOutOfRange q.entryYear q.studyYear) := by
  have htarget : q.entryYear + (q.studyYear - 1 : Nat) = q.target := by
    unfold target
    omega
  have hrange : q.studyYear - 1 ≤ lastCalendarYear ∧ q.target ≤ lastCalendarYear ↔ q.InRange := by
    unfold InRange IsCalendarYear target at *
    omega
  rw [Prospectus.targetYear, if_neg (by omega)]
  simp only [htarget, hrange]

end Query

/-! ### Words of 64 bits

A calendar year takes 32 bits and a difference of two of them takes 33, so the subtraction in words
cannot wrap. The remainder needs more care. Division of words rounds towards zero, and the sign of
its remainder is that of the dividend; moving a negative remainder up by the divisor gives the one
that whole numbers have. -/

/-- The remainder that is not negative, for a positive divisor. Division of words goes towards zero,
so a remainder below zero is moved up by the divisor. -/
def wordRemainder (a b : Int64) : Int64 :=
  let r := a % b
  if r < 0 then r + b else r

theorem toInt_wordRemainder {a b : Int64} (hb : 0 < b.toInt) :
    (wordRemainder a b).toInt = a.toInt % b.toInt := by
  have hnonneg : 0 ≤ a.toInt % b.toInt := Int.emod_nonneg _ (by omega)
  have hlt : a.toInt % b.toInt < b.toInt := Int.emod_lt_of_pos _ hb
  have hmax : b.toInt < 2 ^ 63 := b.toInt_lt
  -- the remainder of words goes towards zero; it differs by the divisor where the dividend is
  -- negative
  have htowards : a.toInt.tmod b.toInt =
      a.toInt % b.toInt - (if 0 ≤ a.toInt ∨ b.toInt ∣ a.toInt then 0 else b.toInt.natAbs : Nat) :=
    Int.tmod_eq_emod
  unfold wordRemainder
  simp only [Int64.lt_iff_toInt_lt, Int64.toInt_mod, Int64.toInt_zero]
  -- a negative remainder is lifted by one divisor, which does not overflow
  split_ifs with hneg
  · rw [Int64.toInt_add, Int64.toInt_mod]
    have hsum : a.toInt.tmod b.toInt + b.toInt = a.toInt % b.toInt := by
      split_ifs at htowards <;> omega
    rw [hsum]
    exact Int.bmod_eq_of_le (by omega) (by omega)
  · rw [Int64.toInt_mod]
    split_ifs at htowards <;> omega

theorem toInt_ofInt_of_isCalendarYear {n : Int} (h : IsCalendarYear n) :
    (Int64.ofInt n).toInt = n := by
  unfold IsCalendarYear lastCalendarYear at h
  exact Int64.toInt_ofInt_of_le (by omega) (by omega)

/-- The difference of two calendar years is exact: it lies within 33 bits, far from where words of
64 bits wrap. -/
theorem toInt_sub_of_isCalendarYear {n k : Int} (hn : IsCalendarYear n) (hk : IsCalendarYear k) :
    (Int64.ofInt n - Int64.ofInt k).toInt = n - k := by
  rw [Int64.toInt_sub, toInt_ofInt_of_isCalendarYear hn, toInt_ofInt_of_isCalendarYear hk]
  unfold IsCalendarYear lastCalendarYear at *
  exact Int.bmod_eq_of_le (by omega) (by omega)

namespace CaptureIndex

/-- The latest captured academic year that lies a whole number of cycles away from the target, found
in words of 64 bits. -/
def congruentProxyInWords? (x : CaptureIndex) (target : Int) (cycleLength : Nat) :
    Option AcademicYear :=
  let cycle := Int64.ofInt (max cycleLength 1)
  (x.captured.entries.reverse.find? fun e =>
    wordRemainder (Int64.ofInt target - Int64.ofInt e.1) cycle == 0).map Prod.snd

variable {x : CaptureIndex} {years : List AcademicYear} {target : Int} {cycle : Nat}

theorem Indexes.isCalendarYear (h : x.Indexes years) :
    ∀ e ∈ x.captured.entries, IsCalendarYear e.1 := by
  intro e he
  have hcaptured : x.captured? e.1 = some e.2 := Dict.mem_entries_iff.mp he
  exact isCalendarYear_of_startYear? (h.of_captured? hcaptured).2

/-- Words have room for all that the look-up computes. So the remainder is zero in words where it is
zero in whole numbers, and the search stops at the same entry. -/
theorem congruentProxyInWords?_eq (hx : ∀ e ∈ x.captured.entries, IsCalendarYear e.1)
    (htarget : IsCalendarYear target) (hcycle : cycle ≤ 0xFFFFFFFF) :
    x.congruentProxyInWords? target cycle = x.congruentProxy? target cycle := by
  have hword : (Int64.ofInt (max cycle 1)).toInt = max (cycle : Int) 1 :=
    Int64.toInt_ofInt_of_le (by omega) (by omega)
  unfold congruentProxyInWords? congruentProxy?
  refine congrArg (Option.map Prod.snd) (List.find?_congr fun e he => ?_)
  have hyear : IsCalendarYear e.1 := hx e (List.mem_reverse.mp he)
  rw [Bool.eq_iff_iff, beq_iff_eq, beq_iff_eq, ← Int64.toInt_inj, Int64.toInt_zero,
    toInt_wordRemainder (by omega), hword, toInt_sub_of_isCalendarYear htarget hyear]

end CaptureIndex

/-! ### Queries with words for their parts

The year of entry is a word of 32 bits with a sign, and the cycle is one without. The statement has
these ranges as hypotheses about whole numbers, so it holds of any query that one can write. -/

namespace MergedModule

variable {m : MergedModule} {years : List AcademicYear} {q : Query}

/-- A query that counts its year of study and its cycle from one has a target and an answer about it
if it is in range, and otherwise the same error in place of both. All that is computed on the way
from a target to an answer is exact in words of 64 bits. -/
theorem availability_exact (hyears : Dated years) (hm : Dated m.availableYears)
    (hentry : IsCalendarYear q.entryYear) (hstudy : 1 ≤ q.studyYear) (hcycle : 1 ≤ q.cycleLength)
    (hword : q.cycleLength ≤ 0xFFFFFFFF) :
    (q.InRange → targetYear q.entryYear q.studyYear = .ok q.target ∧
      ∃ d, m.availability years q = .ok d ∧ d.targetYear = q.target) ∧
    (¬ q.InRange →
      targetYear q.entryYear q.studyYear = .error (.yearOutOfRange q.entryYear q.studyYear) ∧
      m.availability years q = .error (.yearOutOfRange q.entryYear q.studyYear)) ∧
    ∃ x, CaptureIndex.ofYears years = .ok x ∧ ∀ target, IsCalendarYear target →
      (∀ e ∈ x.captured.entries,
        (Int64.ofInt target - Int64.ofInt e.1).toInt = target - e.1) ∧
      x.congruentProxyInWords? target q.cycleLength = x.congruentProxy? target q.cycleLength := by
  obtain ⟨x, hx, hindex⟩ := CaptureIndex.exists_ofYears hyears
  have htarget := Query.targetYear_eq hentry hstudy
  refine ⟨fun hrange => ?_, fun hrange => ?_, x, hx, fun target hcalendar => ⟨?_, ?_⟩⟩
  · -- in range the target is what the sum says, and the decision is made for it
    rw [if_pos hrange] at htarget
    refine ⟨htarget, x.resolve m q.target q.cycleLength, ?_, CaptureIndex.targetYear_resolve⟩
    rw [availability, hx]
    exact CaptureIndex.decide_eq_resolve hindex hm hcycle htarget
  · -- out of range the sum is refused before anything is looked up
    rw [if_neg hrange] at htarget
    have hrefusal : q.refusal? = some (.yearOutOfRange q.entryYear q.studyYear) := by
      rw [Query.refusal?, if_neg (by omega), if_neg (by omega), htarget]
    refine ⟨htarget, ?_⟩
    rw [availability, hx]
    exact CaptureIndex.decide_of_refusal hrefusal
  · intro e he
    exact toInt_sub_of_isCalendarYear hcalendar (hindex.isCalendarYear e he)
  · exact CaptureIndex.congruentProxyInWords?_eq hindex.isCalendarYear hcalendar hword

/-- The longest way that is in range, from the first calendar year on, and the longest cycle. -/
theorem availability_exact_longest :
    let years : List AcademicYear := [⟨"2025/6"⟩, ⟨"0/1"⟩]
    let m : MergedModule := ⟨.blank "MTH1" "Year 1", [⟨"2025/6"⟩], none⟩
    let q : Query := ⟨-0x80000000, 0x80000000, 0xFFFFFFFF⟩
    Dated years ∧ Dated m.availableYears ∧ IsCalendarYear q.entryYear ∧ q.InRange ∧
      q.target = -1 ∧ ∃ d, m.availability years q = .ok d ∧ d.targetYear = q.target := by
  intro years m q
  have hyears : Dated years := by decide
  have hm : Dated m.availableYears := by decide
  have hentry : IsCalendarYear q.entryYear := by decide
  have hrange : q.InRange := by decide
  have hexact := availability_exact hyears hm hentry (by decide) (by decide) (by decide)
  exact ⟨hyears, hm, hentry, hrange, by decide, (hexact.1 hrange).2⟩

end MergedModule

/-- A query whose target is a calendar year, but whose distance is none, has no target. -/
theorem Query.not_targetYear_far_distance :
    let q : Query := ⟨-1, 0x80000001, 2⟩
    IsCalendarYear q.entryYear ∧ 1 ≤ q.studyYear ∧ q.studyYear ≤ 0xFFFFFFFF ∧
      IsCalendarYear q.target ∧
      targetYear q.entryYear q.studyYear = .error (.yearOutOfRange q.entryYear q.studyYear) := by
  intro q
  exact ⟨by decide, by decide, by decide, by decide, by decide⟩

end Prospectus
