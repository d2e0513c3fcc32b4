import Prospectus.Rebuild.Pipeline

/-!
# Sample captures

Records and snapshots of a sample course, made step by step.
-/

namespace Prospectus.Sample

def course : String := "MMath Mathematics"

def school : String := "EMP"

/-- The start of the names of sample snapshot files. -/
def filePrefix : String := "uea_modules_"

/-- One step in making a record. -/
inductive Edit
  | sectionLabel (text : String)
  | credits (text : String)
  | notes (text : String)
  | rules (value : Json.Value)
  | content (title body : String)
  | extra (name : String) (value : Json.Value)

def Edit.apply (r : Record) : Edit → Record
  | sectionLabel text => { r with sectionLabel := text }
  | credits text => { r with credits := text }
  | notes text => { r with notes := text }
  | rules value => { r with moduleRules := value }
  | content title body => { r with contentSections := r.contentSections.insert title body }
  | extra name value => { r with extra := r.extra.insert name value }

/-- The record of an identity after some changes. -/
def record (moduleCode yearOfStudy : String) (edits : List Edit) : Record :=
  edits.foldl Edit.apply (.blank moduleCode yearOfStudy)

def snapshot (year : AcademicYear) (modules : List Record) : Snapshot where
  course
  academicYear := year
  school
  scrapedAt := none
  modules

/-- The catalogue of the sample course from captures under some rules. -/
def pipeline [Pattern.Dialect] (rules : Scrub.Rules) (snapshots : List Snapshot) :
    Except PipelineError (Catalog × Outcome) :=
  runPipeline course school rules snapshots

end Prospectus.Sample
