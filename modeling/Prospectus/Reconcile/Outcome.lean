import Prospectus.Reconcile.Identity
import Prospectus.Reconcile.Rules

/-!
# Reconciling captures

The snapshots of several academic years become one merged module per identity. Snapshots are
walked by ascending label, wherever they stand in the input. The latest record gives a module its
fields; the academic years and the content sections add up, and the rules are kept year by year if
they differ.

The walk is one loop over the snapshots with a loop over the records of each:

    walk.foldl Gathered.visit        the snapshots; `Gathered` is the state between two of them
      modules.zipIdx.foldl Visit.read      their records; `Visit` is the state between two of them
-/

namespace Prospectus

/-! ### What comes out -/

/-- Why a record was left out. Where both parts of an identity are missing, it is the code that is
reported. -/
inductive SkipReason
  | missingModuleCode
  | missingYearOfStudy
  deriving DecidableEq

/-- A record that was left out: where it stood, what it had of an identity, and why. The index
counts all records of the snapshot, so the record can be found again in the file. -/
structure SkippedRecord where
  academicYear : AcademicYear
  index : Nat
  identity : Identity
  reason : SkipReason
  deriving DecidableEq

/-- An identity that stands more than once in one snapshot. That is no error, since the last record
stands for all; but it is reported, as the others are lost. -/
structure RepeatedIdentity where
  academicYear : AcademicYear
  identity : Identity
  occurrences : Nat
  deriving DecidableEq

/-- The result of reconciling snapshots. -/
structure Outcome where
  /-- One module per identity, by ascending identity. -/
  modules : List MergedModule
  /-- The labels of all snapshots, ascending. -/
  academicYears : List AcademicYear
  skipped : List SkippedRecord
  repeated : List RepeatedIdentity
  deriving DecidableEq

/-- No snapshots went in. -/
def Outcome.isEmpty (o : Outcome) : Bool := o.academicYears.isEmpty

/-- The number of modules whose rules differ from year to year. These are the modules that keep
their rules by year. -/
def Outcome.divergentCount (o : Outcome) : Nat := o.modules.countP fun m => m.rulesByYear.isSome

/-! ### One module over the years -/

/-- What the records of one identity add up to so far. -/
structure Observation where
  /-- The latest record, with the content sections of all. -/
  record : Record
  /-- The academic years in the order of the walk. -/
  years : List AcademicYear
  /-- The rules of the latest record of each academic year. -/
  rules : Dict AcademicYear Json.Value
  deriving DecidableEq

namespace Observation

/-- Add a record of an academic year to what the records before it came to. The new record gives all
fields, and of a content section that both have it gives the body. A further record of the same year
replaces the rules of that year. -/
def observe (year : AcademicYear) (r : Record) : Option Observation → Observation
  | none => ⟨r, [year], Dict.insert ∅ year r.moduleRules⟩
  | some o => {
      record := { r with contentSections := o.record.contentSections.union r.contentSections }
      years := if year ∈ o.years then o.years else o.years ++ [year]
      rules := o.rules.insert year r.moduleRules }

/-- The merged module of an observation. Rules by year are kept only if two of them are not the
same; otherwise the rules of the latest record stand for all years. -/
def merged (e : RulesEquivalence) (o : Observation) : MergedModule where
  record := o.record
  availableYears := o.years
  rulesByYear := if e.differ o.rules.values then some o.rules else none

end Observation

/-! ### The walk -/

/-- Snapshots by ascending label; snapshots of one label keep their order. The labels are compared
as texts, whatever calendar years they say. -/
def Snapshot.walk (snapshots : List Snapshot) : List Snapshot :=
  snapshots.mergeSort fun a b => (compare a.academicYear b.academicYear).isLE

/-- The first label that two neighbours share. In a list that is sorted by label, labels that are
shared stand next to each other. -/
def Snapshot.sharedYear? : List Snapshot → Option AcademicYear
  | a :: b :: rest =>
    if a.academicYear = b.academicYear then some a.academicYear else sharedYear? (b :: rest)
  | _ => none

/-- What is missing in an identity that is not complete. -/
def Identity.skipReason? (i : Identity) : Option SkipReason :=
  if i.Complete then none
  else if Text.IsBlank i.moduleCode then some .missingModuleCode
  else some .missingYearOfStudy

/-- What the walk has gathered so far. -/
structure Gathered where
  /-- What the records of each identity add up to. -/
  found : Dict Identity Observation := ∅
  skipped : List SkippedRecord := []
  repeated : List RepeatedIdentity := []

/-- What the walk has gathered while it stands in the middle of a snapshot. The counts belong to
this snapshot alone and are gone when the walk leaves it. -/
structure Visit extends Gathered where
  /-- How often each complete identity has stood in this snapshot. -/
  occurrences : Dict Identity Nat := ∅

/-- Read a record of a snapshot: list it as skipped, or count it and add it to what the records of
its identity come to. -/
def Visit.read (year : AcademicYear) (v : Visit) (r : Record) (index : Nat) : Visit :=
  match r.identity.skipReason? with
  | some reason => { v with skipped := v.skipped ++ [⟨year, index, r.identity, reason⟩] }
  | none => { v with
      occurrences := v.occurrences.alter r.identity fun n => n.getD 0 + 1
      found := v.found.alter r.identity (Observation.observe year r) }

/-- The complete identities that have stood more than once in the snapshot, ascending. -/
def Visit.repeats (year : AcademicYear) (v : Visit) : List RepeatedIdentity :=
  v.occurrences.entries.filterMap fun (identity, n) =>
    if n > 1 then some ⟨year, identity, n⟩ else none

/-- Walk through a snapshot. The identities that stand in it more than once are known only when its
last record has been read. -/
def Gathered.visit (g : Gathered) (s : Snapshot) : Gathered :=
  let v : Visit := s.modules.zipIdx.foldl (fun v (r, index) => v.read s.academicYear r index)
    { toGathered := g }
  { v.toGathered with repeated := v.repeated ++ v.repeats s.academicYear }

/-- Why snapshots cannot be reconciled. -/
inductive ReconcileError
  /-- Two snapshots have one label, so their order would hang on the input. -/
  | sharedAcademicYear (year : AcademicYear)
  deriving DecidableEq

def ReconcileError.message : ReconcileError → String
  | .sharedAcademicYear y =>
    "academic year '" ++ y.label ++ "' is supplied by more than one snapshot"

/-- Reconcile snapshots under an equivalence of rules. The only error is a shared label; records
without an identity are skipped, and repeated ones are reported. -/
def reconcile (e : RulesEquivalence) (snapshots : List Snapshot) :
    Except ReconcileError Outcome :=
  let walk := Snapshot.walk snapshots
  match Snapshot.sharedYear? walk with
  | some year => .error (.sharedAcademicYear year)
  | none =>
    let gathered := walk.foldl Gathered.visit {}
    .ok {
      modules := gathered.found.values.map (Observation.merged e)
      academicYears := walk.map Snapshot.academicYear
      skipped := gathered.skipped
      repeated := gathered.repeated }

end Prospectus
