import Prospectus.AcademicYear
import Prospectus.Json.Normal

/-!
# Module records

One row of a capture of the module catalogue: what was read of one module in one academic year,
and the documents that hold such rows.
-/

namespace Prospectus

/-- What one capture says about a module. All fields but the rules are plain texts or made of texts,
as they stand on the page. -/
structure Record where
  moduleCode : String
  yearOfStudy : String
  sectionLabel : String
  creditRule : String
  notes : String
  description : String
  assessment : String
  credits : String
  period : String
  subSlot : String
  /-- The rules for taking the module: a text in most captures, at times a list. -/
  moduleRules : Json.Value
  prerequisiteCodes : List String
  tableInfo : String
  /-- The bodies of the content sections by title. -/
  contentSections : Dict String String
  /-- Fields that have no place above, kept as they are. -/
  extra : Dict String Json.Value
  deriving DecidableEq

/-- The record of which only the identity is known. -/
def Record.blank (moduleCode yearOfStudy : String) : Record where
  moduleCode
  yearOfStudy
  sectionLabel := ""
  creditRule := ""
  notes := ""
  description := ""
  assessment := ""
  credits := ""
  period := ""
  subSlot := ""
  moduleRules := .text ""
  prerequisiteCodes := []
  tableInfo := ""
  contentSections := ∅
  extra := ∅

instance : Inhabited Record := ⟨.blank "" ""⟩

/-- The capture of one academic year. The course and the school are as the page had them, and may be
empty. -/
structure Snapshot where
  course : String
  academicYear : AcademicYear
  school : String
  scrapedAt : Option String
  modules : List Record
  deriving DecidableEq, Inhabited

/-- A module across all captures: the record of the latest one with the content sections of all,
the academic years that had it, and its rules year by year if they differ. -/
structure MergedModule where
  record : Record
  availableYears : List AcademicYear
  rulesByYear : Option (Dict AcademicYear Json.Value)
  deriving DecidableEq, Inhabited

/-- The modules of a course across all captures. It has the labels of all snapshots that went in,
also of those in which no module was found. -/
structure Catalog where
  course : String
  school : String
  academicYears : List AcademicYear
  modules : List MergedModule
  deriving DecidableEq, Inhabited

end Prospectus
