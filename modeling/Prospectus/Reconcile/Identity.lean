import Prospectus.Record.Basic

/-!
# Module identities

A module is known by its code together with the year of study in which it is offered; offered in
two years of study it is two modules. Identities are ordered by code, then by year of study.
-/

namespace Prospectus

open Std

/-- What tells one module from another. -/
structure Identity where
  moduleCode : String
  yearOfStudy : String
  deriving DecidableEq, Inhabited

namespace Identity

/-- Identities are ordered by code, then by year of study. -/
instance : Ord Identity :=
  ⟨compareLex (compareOn Identity.moduleCode) (compareOn Identity.yearOfStudy)⟩

theorem compare_eq (a b : Identity) :
    compare a b = (compare a.moduleCode b.moduleCode).then (compare a.yearOfStudy b.yearOfStudy) :=
  rfl

instance : TransOrd Identity :=
  inferInstanceAs (TransCmp
    (compareLex (compareOn Identity.moduleCode) (compareOn Identity.yearOfStudy)))

instance : LawfulEqOrd Identity where
  eq_of_compare {a b} h := by
    rw [compare_eq, Ordering.then_eq_eq] at h
    obtain ⟨c, y⟩ := a
    obtain ⟨d, z⟩ := b
    obtain rfl : c = d := LawfulEqOrd.eq_of_compare h.1
    obtain rfl : y = z := LawfulEqOrd.eq_of_compare h.2
    rfl

/-- Both parts hold more than blank characters. -/
def Complete (i : Identity) : Prop :=
  ¬ Text.IsBlank i.moduleCode ∧ ¬ Text.IsBlank i.yearOfStudy

instance (i : Identity) : Decidable i.Complete := inferInstanceAs (Decidable (_ ∧ _))

def display (i : Identity) : String := "(" ++ i.moduleCode ++ ", " ++ i.yearOfStudy ++ ")"

end Identity

/-- The identity of a record: its two parts as they are written. -/
def Record.identity (r : Record) : Identity := ⟨r.moduleCode, r.yearOfStudy⟩

def MergedModule.identity (m : MergedModule) : Identity := m.record.identity

end Prospectus
