import Prospectus.Record.Basic

/-!
# Availability

Whether a module runs in a year of study of a student who entered in some calendar year. The
calendar year in question is the target. A target that was captured, or in which the module is
known to run, is answered from the captures; any other target is projected through the latest
captured year that lies a whole number of curriculum cycles away.
-/

namespace Prospectus

/-- The answer to a query. -/
inductive Availability
  | available
  | unavailable
  /-- No captured year lies on the same place of the cycle. -/
  | indeterminate
  deriving DecidableEq

/-- What an answer rests on. The years are given by the label under which they were captured, as a
reader would look for them. -/
inductive Basis
  /-- The target itself is known. -/
  | captured (year : AcademicYear)
  /-- The target was projected through a captured year. -/
  | projected (proxy : AcademicYear)
  | noCongruentCapture
  deriving DecidableEq

/-- An answer with its target and what it rests on. The target is given for every answer, also where
nothing is known about it. -/
structure Decision where
  availability : Availability
  targetYear : Int
  basis : Basis
  deriving DecidableEq

def Decision.isAvailable (d : Decision) : Bool := d.availability == .available

/-- Why a query has no answer. -/
inductive AvailabilityError
  | zeroCycleLength
  /-- Years of study count from one. -/
  | zeroStudyYear
  /-- A label without a calendar year in front. -/
  | unparseableLabel (year : AcademicYear)
  /-- The target is no calendar year. -/
  | yearOutOfRange (entryYear : Int) (studyYear : Nat)
  deriving DecidableEq

def AvailabilityError.message : AvailabilityError → String
  | .zeroCycleLength => "cycle length must be at least 1"
  | .zeroStudyYear => "year of study must be at least 1"
  | .unparseableLabel y => "academic year label '" ++ y.label ++ "' has no leading calendar year"
  | .yearOutOfRange entryYear studyYear =>
    s!"year {studyYear} of study for entry year {entryYear} is out of range"

/-- What is asked: the calendar year of entry, the year of study, and the length of the
curriculum cycle in years. -/
structure Query where
  entryYear : Int
  studyYear : Nat
  cycleLength : Nat
  deriving DecidableEq

/-- The curriculum alternates from one year to the next unless something else is said. A cycle of
two years puts a module back in its place every second year. -/
def defaultCycleLength : Nat := 2

/-- The calendar year in which a year of study falls. Neither it nor the distance from the year of
entry may be beyond the last calendar year. -/
def targetYear (entryYear : Int) (studyYear : Nat) : Except AvailabilityError Int :=
  if studyYear = 0 then .error .zeroStudyYear
  else
    let target := entryYear + (studyYear - 1 : Nat)
    if studyYear - 1 ≤ AcademicYear.lastCalendarYear ∧ target ≤ AcademicYear.lastCalendarYear then
      .ok target
    else .error (.yearOutOfRange entryYear studyYear)

def AcademicYear.calendarYear (y : AcademicYear) : Except AvailabilityError Int :=
  match y.startYear? with
  | some n => .ok n
  | none => .error (.unparseableLabel y)

/-- The captured academic years by calendar year. Several labels may start in one calendar year, and
the index has room for one of them. -/
structure CaptureIndex where
  captured : Dict Int AcademicYear
  deriving DecidableEq

namespace CaptureIndex

/-- The index of a list of labels; of two labels with one calendar year the first stays. -/
def ofYears (years : List AcademicYear) : Except AvailabilityError CaptureIndex :=
  CaptureIndex.mk <$> years.foldlM (fun d y =>
    return d.alter (← y.calendarYear) fun first => first.getD y) ∅

def captured? (x : CaptureIndex) (year : Int) : Option AcademicYear := x.captured.find? year

/-- The latest captured academic year that lies a whole number of cycles away from the target. It
may lie before the target or after it; a cycle of no years counts as one of a single year. -/
def congruentProxy? (x : CaptureIndex) (target : Int) (cycleLength : Nat) : Option AcademicYear :=
  let cycle : Int := max cycleLength 1
  (x.captured.entries.reverse.find? fun e => (target - e.1) % cycle == 0).map Prod.snd

/-- Answer a query for a module. Errors come in the order in which things are looked at: the length
of the cycle, the year of study, the target, and then the labels of the module. -/
def decide (x : CaptureIndex) (m : MergedModule) (q : Query) :
    Except AvailabilityError Decision := do
  if q.cycleLength = 0 then throw .zeroCycleLength
  let target ← targetYear q.entryYear q.studyYear
  -- every label of the module is read, also where the first one would decide
  let runsIn ← m.availableYears.mapM AcademicYear.calendarYear
  match (m.availableYears.zip runsIn).find? fun e => e.2 == target with
  | some (year, _) => return ⟨.available, target, .captured year⟩
  | none =>
    match x.captured? target with
    | some year => return ⟨.unavailable, target, .captured year⟩
    | none =>
      match x.congruentProxy? target q.cycleLength with
      | some proxy =>
        -- the two lists need not have the proxy in common as a label, only as a calendar year
        let year ← proxy.calendarYear
        let answer := if year ∈ runsIn then Availability.available else .unavailable
        return ⟨answer, target, .projected proxy⟩
      | none => return ⟨.indeterminate, target, .noCongruentCapture⟩

end CaptureIndex

/-- Answer a query for a module when the captured academic years are given as a list. -/
def MergedModule.availability (m : MergedModule) (years : List AcademicYear) (q : Query) :
    Except AvailabilityError Decision := do
  (← CaptureIndex.ofYears years).decide m q

end Prospectus
