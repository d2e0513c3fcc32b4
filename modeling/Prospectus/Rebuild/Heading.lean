import Prospectus.Rebuild.Pipeline
import Prospectus.Settings.Basic

/-!
# The heading of the catalogue

The course and the school of the catalogue are those of the settings, or else those of the latest
snapshot that names them.
-/

namespace Prospectus

open Scrub

/-- Snapshots by descending label; those of one label keep their order. This is not the walk turned
round, since the walk also keeps the order of those with one label. -/
def newestFirst (snapshots : List Snapshot) : List Snapshot :=
  snapshots.mergeSort fun a b => (compare b.academicYear a.academicYear).isLE

/-- The first text that is not blank, as the snapshots say it from the latest one on. If all are
blank, the text is empty. -/
def latestNamed (snapshots : List Snapshot) (text : Snapshot → String) : String :=
  (((newestFirst snapshots).map text).find? fun s => ¬ Text.IsBlank s).getD ""

def CatalogSettings.courseFor (x : CatalogSettings) (snapshots : List Snapshot) : String :=
  x.course.getD (latestNamed snapshots Snapshot.course)

def CatalogSettings.schoolFor (x : CatalogSettings) (snapshots : List Snapshot) : String :=
  x.school.getD (latestNamed snapshots Snapshot.school)

/-- The catalogue of captures under some settings, and the outcome that it is made from. The
heading is taken from the scrubbed snapshots. -/
def rebuildCatalog (x : CatalogSettings) (scrubber : Scrubber) (captures : List Snapshot) :
    Except PipelineError (Catalog × Outcome) :=
  let snapshots := captures.map scrubber.scrubSnapshot
  assemble (x.courseFor snapshots) (x.schoolFor snapshots) snapshots

end Prospectus
