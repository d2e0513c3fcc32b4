import Prospectus.Reconcile.Outcome

/-!
# Presentation order and the catalogue

Modules are presented by the number of the year of study, the rank of the section, the code and
the label of the year of study. `Catalog.build` puts the modules of an outcome into that order.
-/

namespace Prospectus

open Std

/-- The first ASCII digit of a label. So `Year 2P` belongs to the second year of study, and a label
with a number of several digits goes by the first of them. -/
def studyYearNumber? (label : String) : Option Nat :=
  (label.toList.find? Char.isDigit).map fun c => c.toNat - '0'.toNat

/-- The rank of sections that are not in the table, after every other. -/
def unrankedSection : Nat := 99

/-- Sections that start with a text, with their rank. The first match counts. Upper and lower case
matter, and so do blank characters in front. -/
def sectionRanks : List (String × Nat) :=
  [("Compulsory Modules", 0), ("Core Modules", 0), ("Options Range A", 1), ("Options Range B", 2),
    ("Options Range C", 3)]

def sectionRank (label : String) : Nat :=
  match sectionRanks.find? fun e => Text.startsWith label.toList e.1.toList with
  | some e => e.2
  | none => unrankedSection

/-- What modules are presented by, the first field first. The last two are the identity of the
module, so in an outcome, where identities are distinct, no two modules have one key. -/
structure SortKey where
  studyYear : Nat
  sectionRank : Nat
  moduleCode : String
  yearOfStudy : String
  deriving DecidableEq

namespace SortKey

instance : Ord SortKey :=
  ⟨compareLex (compareOn SortKey.studyYear) (compareLex (compareOn SortKey.sectionRank)
    (compareLex (compareOn SortKey.moduleCode) (compareOn SortKey.yearOfStudy)))⟩

instance : TransOrd SortKey :=
  inferInstanceAs (TransCmp (compareLex (compareOn SortKey.studyYear)
    (compareLex (compareOn SortKey.sectionRank)
      (compareLex (compareOn SortKey.moduleCode) (compareOn SortKey.yearOfStudy)))))

end SortKey

/-- Why modules cannot be put in order. -/
inductive PresentationError
  /-- The label of the year of study has no digit. -/
  | noStudyYearDigit (moduleCode yearOfStudy : String)
  deriving DecidableEq

def PresentationError.message : PresentationError → String
  | .noStudyYearDigit code label =>
    "module '" ++ code ++ "': year_of_study label '" ++ label ++ "' has no digit"

def MergedModule.sortKey (m : MergedModule) : Except PresentationError SortKey :=
  match studyYearNumber? m.record.yearOfStudy with
  | none => .error (.noStudyYearDigit m.record.moduleCode m.record.yearOfStudy)
  | some n => .ok ⟨n, Prospectus.sectionRank m.record.sectionLabel, m.record.moduleCode,
      m.record.yearOfStudy⟩

/-- Modules in presentation order; modules of one key keep their order. The first module without
a key is the error, and then no module is put in order. -/
def present (modules : List MergedModule) : Except PresentationError (List MergedModule) := do
  let keyed ← modules.mapM fun m => return (← m.sortKey, m)
  return (keyed.mergeSort fun a b => (compare a.1 b.1).isLE).map Prod.snd

def Catalog.build (course school : String) (o : Outcome) : Except PresentationError Catalog := do
  return { course, school, academicYears := o.academicYears, modules := ← present o.modules }

end Prospectus
