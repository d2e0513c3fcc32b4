import Prospectus.Json.Decode
import Prospectus.Json.Printer
import Prospectus.Record.Basic

/-!
# The JSON form of records, snapshots and catalogues

Each document has an encoding, which fixes the order of the members, and a decoder. Records and
merged modules keep the members that they do not know; snapshots and catalogues pass over them,
and may also be written as arrays that list their fields in order.
-/

namespace Prospectus

open Json (DecodeError Decoder Form Source Value)

namespace Record

/-! ### Fields -/

/-- The fields that a record has a place for. -/
inductive Field
  | moduleCode | yearOfStudy | sectionLabel | creditRule | notes | description | assessment
  | credits | period | subSlot | moduleRules | prerequisiteCodes | tableInfo | contentSections
  deriving DecidableEq

namespace Field

def name : Field → String
  | moduleCode => "module_code"
  | yearOfStudy => "year"
  | sectionLabel => "section"
  | creditRule => "credit_rule"
  | notes => "notes"
  | description => "description"
  | assessment => "assessment"
  | credits => "credits"
  | period => "period"
  | subSlot => "sub_slot"
  | moduleRules => "module_rules"
  | prerequisiteCodes => "prerequisite_codes"
  | tableInfo => "table_info"
  | contentSections => "content_sections"

/-- All fields in the order of the document. -/
def all : List Field :=
  [moduleCode, yearOfStudy, sectionLabel, creditRule, notes, description, assessment, credits,
    period, subSlot, moduleRules, prerequisiteCodes, tableInfo, contentSections]

/-- A second name under which a field may be read. -/
def alias? : Field → Option String
  | yearOfStudy => some "year_of_study"
  | _ => none

/-- The field that a name belongs to. -/
def ofName? (s : String) : Option Field := all.find? fun f => f.name == s || f.alias? == some s

end Field

/-! ### Encoding -/

/-- What a document says about a field. -/
def fieldJson (r : Record) : Field → Json
  | .moduleCode => .str r.moduleCode
  | .yearOfStudy => .str r.yearOfStudy
  | .sectionLabel => .str r.sectionLabel
  | .creditRule => .str r.creditRule
  | .notes => .str r.notes
  | .description => .str r.description
  | .assessment => .str r.assessment
  | .credits => .str r.credits
  | .period => .str r.period
  | .subSlot => .str r.subSlot
  | .moduleRules => r.moduleRules.tree
  | .prerequisiteCodes => .ofStrings r.prerequisiteCodes
  | .tableInfo => .str r.tableInfo
  | .contentSections => .obj (r.contentSections.map .str).entries

/-- The members of a record: its own fields in order, then the extra ones by name. -/
def members (r : Record) : List (String × Json) :=
  (Field.all.map fun f => (f.name, r.fieldJson f)) ++ (r.extra.map Value.tree).entries

def toJson (r : Record) : Json := .obj r.members

/-! ### Decoding -/

/-- Read one field into a record. -/
def readField (r : Record) (f : Field) (s : Source) : Except DecodeError Record :=
  match f with
  | .moduleCode => return { r with moduleCode := ← s.textOrNull }
  | .yearOfStudy => return { r with yearOfStudy := ← s.textOrNull }
  | .sectionLabel => return { r with sectionLabel := ← s.textOrNull }
  | .creditRule => return { r with creditRule := ← s.textOrNull }
  | .notes => return { r with notes := ← s.textOrNull }
  | .description => return { r with description := ← s.textOrNull }
  | .assessment => return { r with assessment := ← s.textOrNull }
  | .credits => return { r with credits := ← s.textOrNull }
  | .period => return { r with period := ← s.textOrNull }
  | .subSlot => return { r with subSlot := ← s.textOrNull }
  | .moduleRules => return { r with moduleRules := ← s.value }
  | .prerequisiteCodes => return { r with prerequisiteCodes := ← s.list Source.text }
  | .tableInfo => return { r with tableInfo := ← s.textOrNull }
  | .contentSections => return { r with contentSections := ← s.dict Source.text }

/-- A record that is being read, and the fields that were met. -/
structure Draft where
  record : Record
  met : List Field

/-- Nothing read yet: every field has its default. -/
def Draft.start : Draft := ⟨.blank "" "", []⟩

/-- Read one member. A field may be met only once; of an extra name the last member stays. -/
def Draft.read (d : Draft) (name : String) (s : Source) : Except DecodeError Draft :=
  match Field.ofName? name with
  | some f =>
    if f ∈ d.met then throw (.duplicateField f.name)
    else return ⟨← d.record.readField f s, f :: d.met⟩
  | none => return { d with record := { d.record with
      extra := d.record.extra.insert name (← s.value) } }

/-- Decode a record. No field has to be there. -/
def decode : Decoder Record := fun s => return (← s.foldMembers Draft.start Draft.read).record

end Record

namespace AcademicYear

/-- An academic year is written as its label. -/
def toJson (y : AcademicYear) : Json := .str y.label

/-- Any text is a label. -/
def decode : Decoder AcademicYear := fun s => s.text.map AcademicYear.mk

end AcademicYear

namespace MergedModule

/-- The encoding of a merged module: the members of its record, the years, and the rules by year
if there are any. -/
def toJson (m : MergedModule) : Json :=
  .obj <| m.record.members ++
    ("available_years", .arr (m.availableYears.map AcademicYear.toJson)) ::
      match m.rulesByYear with
      | none => []
      | some rules => [("rules_by_year", .obj (rules.entries.map fun e => (e.1.label, e.2.tree)))]

/-- Read rules by year; of a repeated label the last value stays. -/
def decodeRules : Decoder (Dict AcademicYear Value) :=
  Source.foldMembers ∅ fun found name s => return found.insert ⟨name⟩ (← s.value)

/-- A merged module that is being read: its own two fields, and the members of the record in
order, which are decoded once all members were met. -/
structure Draft where
  availableYears : Option (List AcademicYear) := none
  rulesByYear : Option (Option (Dict AcademicYear Value)) := none
  recordMembers : List (String × Json) := []

def Draft.read (d : Draft) (name : String) (s : Source) : Except DecodeError Draft :=
  if name = "available_years" then
    return { d with
      availableYears := ← Source.once d.availableYears name (Source.list AcademicYear.decode) s }
  else if name = "rules_by_year" then
    return { d with
      rulesByYear := ← Source.once d.rulesByYear name (Source.optional decodeRules) s }
  else return { d with recordMembers := d.recordMembers ++ [(name, ← s.any)] }

/-- Decode a merged module: first its own two fields, then the record. -/
def decode : Decoder MergedModule := fun s => do
  let d ← s.foldMembers {} Draft.read
  let availableYears ← Source.required d.availableYears "available_years"
  let record ← Record.decode (.ofJson (.obj d.recordMembers))
  return { record, availableYears, rulesByYear := d.rulesByYear.join }

end MergedModule

namespace Snapshot

/-- The encoding of a snapshot; the time of the capture stands there only if it is known. -/
def toJson (s : Snapshot) : Json :=
  .obj <| [("course", .str s.course), ("academic_year", s.academicYear.toJson),
    ("school", .str s.school)] ++
    (match s.scrapedAt with
      | none => []
      | some t => [("scraped_at", .str t)]) ++
    [("modules", .arr (s.modules.map Record.toJson))]

structure Draft where
  course : Option String := none
  academicYear : Option AcademicYear := none
  school : Option String := none
  scrapedAt : Option (Option String) := none
  modules : Option (List Record) := none

/-- Read one member; an unknown one is passed over. -/
def Draft.read (d : Draft) (name : String) (s : Source) : Except DecodeError Draft :=
  if name = "course" then
    return { d with course := ← Source.once d.course name Source.textOrNull s }
  else if name = "academic_year" then
    return { d with academicYear := ← Source.once d.academicYear name AcademicYear.decode s }
  else if name = "school" then
    return { d with school := ← Source.once d.school name Source.textOrNull s }
  else if name = "scraped_at" then
    return { d with scrapedAt := ← Source.once d.scrapedAt name (Source.optional Source.text) s }
  else if name = "modules" then
    return { d with modules := ← Source.once d.modules name (Source.list Record.decode) s }
  else do
    s.ignore
    return d

/-- Decode a snapshot. Only the academic year has to be there. -/
def decode (form : Form) : Decoder Snapshot
  | .arr items ending => do
    let course ← Source.fieldAt Source.textOrNull (.ok "") items ending 0
    let academicYear ← Source.fieldAt AcademicYear.decode (.error (.invalidLength 1)) items ending 1
    let school ← Source.fieldAt Source.textOrNull (.ok "") items ending 2
    let scrapedAt ← Source.fieldAt (Source.optional Source.text) (.ok none) items ending 3
    let modules ← Source.fieldAt (Source.list Record.decode) (.ok []) items ending 4
    Source.endItems form items ending 5
    return { course, academicYear, school, scrapedAt, modules }
  | s => do
    let d ← s.foldMembers {} Draft.read
    let academicYear ← Source.required d.academicYear "academic_year"
    return {
      course := d.course.getD ""
      academicYear
      school := d.school.getD ""
      scrapedAt := d.scrapedAt.join
      modules := d.modules.getD [] }

end Snapshot

namespace Catalog

def toJson (c : Catalog) : Json :=
  .obj [("course", .str c.course), ("school", .str c.school),
    ("academic_years", .arr (c.academicYears.map AcademicYear.toJson)),
    ("modules", .arr (c.modules.map MergedModule.toJson))]

structure Draft where
  course : Option String := none
  school : Option String := none
  academicYears : Option (List AcademicYear) := none
  modules : Option (List MergedModule) := none

/-- Read one member; an unknown one is passed over. -/
def Draft.read (d : Draft) (name : String) (s : Source) : Except DecodeError Draft :=
  if name = "course" then
    return { d with course := ← Source.once d.course name Source.text s }
  else if name = "school" then
    return { d with school := ← Source.once d.school name Source.text s }
  else if name = "academic_years" then
    return { d with
      academicYears := ← Source.once d.academicYears name (Source.list AcademicYear.decode) s }
  else if name = "modules" then
    return { d with modules := ← Source.once d.modules name (Source.list MergedModule.decode) s }
  else do
    s.ignore
    return d

/-- Decode a catalogue. All its fields have to be there. -/
def decode (form : Form) : Decoder Catalog
  | .arr items ending => do
    let missing {α : Type} (i : Nat) : Except DecodeError α := .error (.invalidLength i)
    let course ← Source.fieldAt Source.text (missing 0) items ending 0
    let school ← Source.fieldAt Source.text (missing 1) items ending 1
    let academicYears ← Source.fieldAt (Source.list AcademicYear.decode) (missing 2) items ending 2
    let modules ← Source.fieldAt (Source.list MergedModule.decode) (missing 3) items ending 3
    Source.endItems form items ending 4
    return { course, school, academicYears, modules }
  | s => do
    let d ← s.foldMembers {} Draft.read
    let course ← Source.required d.course "course"
    let school ← Source.required d.school "school"
    let academicYears ← Source.required d.academicYears "academic_years"
    let modules ← Source.required d.modules "modules"
    return { course, school, academicYears, modules }

end Catalog

end Prospectus
