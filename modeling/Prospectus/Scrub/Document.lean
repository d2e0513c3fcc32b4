import Prospectus.Record.Basic
import Prospectus.Scrub.Basic
import Prospectus.Scrub.TableInfo

/-!
# Scrubbing documents

Every text field of a record is scrubbed but the two that identify it. Content sections that list
students, repeat the header of the module or have nothing left are dropped, and so is the raw text
of the page.
-/

namespace Prospectus.Scrub

/-- What was found while scrubbing a document: how many modules it has, and how many content
sections were dropped from them. -/
structure Report where
  modules : Nat
  sectionsRemoved : Nat
  deriving DecidableEq

/-- The title of the content section that lists students. -/
def studentsTitle : String := "Students"

/-- The extra field with the raw text of the page. -/
def rawTextField : String := "full_detail_text"

namespace Scrubber

/-- Whether a content section stays, given its scrubbed body. The title is looked at as it was
captured. -/
def keepsSection (title body : String) : Bool :=
  !(title == studentsTitle || isHeaderTitle title || body.isEmpty)

/-- The content sections that stay, with their scrubbed bodies. Titles are not scrubbed. -/
def scrubSections (s : Scrubber) (sections : Dict String String) : Dict String String :=
  (sections.map s.scrub).filter keepsSection

/-- Scrub a row of the module table, cleaning and scrubbing in turn until nothing changes. Either
may bring about something for the other to do. -/
def scrubRow (s : Scrubber) (text : String) : String :=
  let row := text.toList
  String.ofList (settle (fun row => s.scrubChars (cleanRow row)) (row.length + 1) row)

def scrubRecord (s : Scrubber) (r : Record) : Record where
  moduleCode := r.moduleCode
  yearOfStudy := r.yearOfStudy
  sectionLabel := s.scrub r.sectionLabel
  creditRule := s.scrub r.creditRule
  notes := s.scrub r.notes
  description := s.scrub r.description
  assessment := s.scrub r.assessment
  credits := s.scrub r.credits
  period := s.scrub r.period
  subSlot := s.scrub r.subSlot
  moduleRules := s.scrubValue r.moduleRules
  prerequisiteCodes := r.prerequisiteCodes
  tableInfo := s.scrubRow r.tableInfo
  contentSections := s.scrubSections r.contentSections
  extra := (r.extra.erase rawTextField).map s.scrubValue

def sectionsRemoved (s : Scrubber) (r : Record) : Nat :=
  r.contentSections.size - (s.scrubSections r.contentSections).size

def scrubSnapshot (s : Scrubber) (d : Snapshot) : Snapshot :=
  { d with modules := d.modules.map s.scrubRecord }

/-- What scrubbing a snapshot finds. The report is made from the snapshot before it is scrubbed. -/
def reportSnapshot (s : Scrubber) (d : Snapshot) : Report where
  modules := d.modules.length
  sectionsRemoved := (d.modules.map s.sectionsRemoved).foldr (· + ·) 0

/-- Scrub a merged module with its rules of each year. Rules that become the same are kept by year
nevertheless. -/
def scrubMerged (s : Scrubber) (m : MergedModule) : MergedModule where
  record := s.scrubRecord m.record
  availableYears := m.availableYears
  rulesByYear := m.rulesByYear.map fun rules => rules.map s.scrubValue

def scrubCatalog (s : Scrubber) (c : Catalog) : Catalog :=
  { c with modules := c.modules.map s.scrubMerged }

def reportCatalog (s : Scrubber) (c : Catalog) : Report where
  modules := c.modules.length
  sectionsRemoved := (c.modules.map fun m => s.sectionsRemoved m.record).foldr (· + ·) 0

end Scrubber

end Prospectus.Scrub
