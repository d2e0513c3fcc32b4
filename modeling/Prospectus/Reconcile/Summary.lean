import Prospectus.Record.Basic

/-!
# Summary of a catalogue

How many modules there are in each year of study, and how many of them run in each academic year.
-/

namespace Prospectus

/-- The modules that share one label of a year of study. Labels that have the same digit have rows
of their own. -/
structure StudyYearRow where
  yearOfStudy : String
  modules : Nat
  /-- How many of them run, by academic year. -/
  availability : Dict AcademicYear Nat
  deriving DecidableEq

structure Summary where
  totalModules : Nat
  academicYears : List AcademicYear
  /-- One row per label, by first appearance. -/
  rows : List StudyYearRow
  deriving DecidableEq

namespace StudyYearRow

/-- The row of a label before any module. -/
def start (label : String) : StudyYearRow := ⟨label, 0, ∅⟩

def count (row : StudyYearRow) (m : MergedModule) : StudyYearRow where
  yearOfStudy := row.yearOfStudy
  modules := row.modules + 1
  availability :=
    m.availableYears.foldl (fun d y => d.alter y fun n => n.getD 0 + 1) row.availability

/-- Count a module in the row of its label, which is put at the end if there is none. Modules of one
label need not stand together. -/
def countIn (rows : List StudyYearRow) (m : MergedModule) : List StudyYearRow :=
  match rows with
  | [] => [(start m.record.yearOfStudy).count m]
  | row :: rest =>
    if row.yearOfStudy = m.record.yearOfStudy then row.count m :: rest
    else row :: countIn rest m

end StudyYearRow

def Catalog.summary (c : Catalog) : Summary where
  totalModules := c.modules.length
  academicYears := c.academicYears
  rows := c.modules.foldl StudyYearRow.countIn []

end Prospectus
