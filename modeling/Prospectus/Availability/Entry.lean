import Prospectus.Availability.Decision
import Prospectus.Reconcile.Presentation

/-!
# Modules for an entry year

The modules of a catalogue that belong to one year of study, each with the answer for a student
who entered in some year and with the rules that hold for that student.
-/

namespace Prospectus

/-- The rules of a module in an academic year: those of that year if the rules were kept year by
year, else the ones that all captures agree on. If they were kept by year but not for this one, they
are those of the latest record. -/
def MergedModule.effectiveRules (m : MergedModule) (year : AcademicYear) : Json.Value :=
  (m.rulesByYear.bind fun rules => rules.find? year).getD m.record.moduleRules

/-- A module with the answer to a query and its rules. -/
structure EntryModule where
  merged : MergedModule
  decision : Decision
  rules : Json.Value
  deriving DecidableEq

/-- The rules that go with an answer: those of the year that it rests on, looked up by label. An
answer that rests on no year has the rules of the latest record. -/
def MergedModule.rulesFor (m : MergedModule) : Basis → Json.Value
  | .captured year => m.effectiveRules year
  | .projected proxy => m.effectiveRules proxy
  | .noCongruentCapture => m.record.moduleRules

/-- The modules whose label has the digit of the year of study asked for, in catalogue order.
Modules whose label has no digit belong to no year of study. A query is looked at only when a module
is, so without a module for the year of study nothing is refused. -/
def Catalog.modulesForEntry (c : Catalog) (q : Query) :
    Except AvailabilityError (List EntryModule) := do
  let index ← CaptureIndex.ofYears c.academicYears
  let modules := c.modules.filter fun m =>
    studyYearNumber? m.record.yearOfStudy == some q.studyYear
  modules.mapM fun m => do
    let decision ← index.decide m q
    return ⟨m, decision, m.rulesFor decision.basis⟩

end Prospectus
