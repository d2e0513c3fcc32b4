import Prospectus.Reconcile.Presentation
import Prospectus.Scrub.Document

/-!
# From captures to the catalogue

Scrub all snapshots, reconcile them, and put the modules in order.
-/

namespace Prospectus

open Scrub

/-- Why captures make no catalogue, by the stage that fails: the rules for the scrubber,
reconciling, or putting the modules in order. -/
inductive PipelineError
  | rules (e : RulesError)
  | reconcile (e : ReconcileError)
  | presentation (e : PresentationError)
  deriving DecidableEq

def PipelineError.message : PipelineError → String
  | .rules _ => "build scrubber failed"
  | .reconcile e => e.message
  | .presentation e => e.message

/-- The catalogue of scrubbed snapshots, and the outcome that it is made from. Which rules are the
same is decided after scrubbing, so what was scrubbed cannot make them differ. -/
def assemble (course school : String) (snapshots : List Snapshot) :
    Except PipelineError (Catalog × Outcome) := do
  let outcome ← (reconcile .canonical snapshots).mapError .reconcile
  let catalog ← (Catalog.build course school outcome).mapError .presentation
  return (catalog, outcome)

/-- The catalogue of captures under some rules, and the outcome that it is made from. -/
def runPipeline [Pattern.Dialect] (course school : String) (rules : Rules)
    (snapshots : List Snapshot) : Except PipelineError (Catalog × Outcome) := do
  let scrubber ← (Scrubber.ofRules rules).mapError .rules
  assemble course school (snapshots.map scrubber.scrubSnapshot)

/-- The labels of the snapshots that have a record of an identity, ascending and each once. Whether
the identity is complete is not asked. -/
def yearsContaining (snapshots : List Snapshot) (i : Identity) : List AcademicYear :=
  (((snapshots.filter fun s => s.modules.any fun r => r.identity == i).map
    fun s => (s.academicYear, ())).foldl (fun d e => d.insert e.1 e.2)
      (∅ : Dict AcademicYear Unit)).keys

end Prospectus
