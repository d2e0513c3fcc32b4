import Prospectus.Text.Pieces

/-!
# Academic years

An academic year is known by its label, such as `2025/6`. Labels are ordered as texts, and the
digits in front give the calendar year in which the academic year starts.
-/

namespace Prospectus

open Std

/-- The label of an academic year. -/
structure AcademicYear where
  label : String
  deriving DecidableEq, Inhabited

namespace AcademicYear

/-- Academic years are ordered by the text of their labels. -/
instance : Ord AcademicYear := ⟨compareOn AcademicYear.label⟩

theorem compare_eq (a b : AcademicYear) : compare a b = compare a.label b.label := rfl

instance : TransOrd AcademicYear := inferInstanceAs (TransCmp (compareOn AcademicYear.label))

instance : LawfulEqOrd AcademicYear where
  eq_of_compare {a b} h := by
    cases a
    cases b
    exact congrArg _ (LawfulEqOrd.eq_of_compare (α := String) h)

/-- The last calendar year there is. -/
def lastCalendarYear : Nat := 0x7FFFFFFF

/-- The number that leading ASCII digits write. -/
def leadingNumber? (cs : List Char) : Option Nat :=
  match cs.takeWhile Char.isDigit with
  | [] => none
  | ds => some (ds.foldl (fun n c => 10 * n + (c.toNat - '0'.toNat)) 0)

/-- The calendar year in which the academic year starts: the digits in front of the label, blank
characters aside. A label without such digits has none, and neither has one whose number is beyond
the last calendar year. -/
def startYear? (y : AcademicYear) : Option Int :=
  (leadingNumber? (Text.trim y.label.toList)).bind fun n =>
    if n ≤ lastCalendarYear then some (n : Int) else none

/-- The label as a part of a file name: an underscore stands for each slash. -/
def slug (y : AcademicYear) : String := Text.replaceChar '/' ['_'] y.label

end AcademicYear

end Prospectus
