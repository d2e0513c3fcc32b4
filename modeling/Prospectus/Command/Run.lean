import Prospectus.Availability.Entry
import Prospectus.Command.Basic
import Prospectus.Rebuild.Heading
import Prospectus.Reconcile.Summary
import Prospectus.Settings.Files
import Prospectus.Store.Documents
import Prospectus.Text.Quoted

/-!
# Running commands

A command works on files and prints lines. If it fails, the lines printed and the files written
before the failure stay.
-/

namespace Prospectus

open Json (Value)
open Scrub (Scrubber)
open Store (FileAccess Path StoreError)

/-- Why a command fails, by the part of the program that gave up. -/
inductive CommandError
  | settings (e : SettingsError)
  | store (e : StoreError)
  | pipeline (e : PipelineError)
  | availability (e : AvailabilityError)
  deriving DecidableEq

def CommandError.message : CommandError → String
  | .settings e => e.message
  | .store e => e.message
  | .pipeline e => e.message
  | .availability e => e.message

namespace Command

/-- A run of a command on files, with the lines printed so far. -/
abbrev Run (m : Type → Type) := ExceptT CommandError (StateT (List String) m)

section

variable {m : Type → Type} [Monad m]

def say (line : String) : Run m Unit := modify fun lines => lines ++ [line]

/-- A part of a run that may fail. -/
def part {ε α : Type} (asError : ε → CommandError) (x : ExceptT ε m α) : Run m α :=
  ExceptT.mk (return (← StateT.lift x.run).mapError asError)

/-- A part of a run that works on no files. -/
def pureStep {ε α : Type} (asError : ε → CommandError) (x : Except ε α) : Run m α :=
  ExceptT.mk (pure (x.mapError asError))

variable [FileAccess m]

/-- The merged layers and the settings that they say. -/
def readSettings (layers : List Path) : Run m (Value × Settings) := do
  let merged ← part .settings (Settings.mergedOfFiles layers)
  let settings ← pureStep .settings (Settings.ofValue merged)
  return (merged, settings)

def readScrubber [Pattern.Dialect] (settings : Settings) : Run m Scrubber :=
  pureStep (fun e => .pipeline (.rules e)) (Scrubber.ofRules settings.scrub)

/-- The directory of the snapshots: the one on the command line, or else that of the settings. It
need not exist. -/
def directoryOf (settings : Settings) (given : Option Path) : Path :=
  given.getD ⟨settings.snapshots.directory⟩

/-- The file of the catalogue in the directory of the snapshots. -/
def catalogFile (settings : Settings) (directory : Path) : Path :=
  directory.join ⟨settings.catalog.outputFile⟩

/-! ### Rebuilding -/

def studyYearLine (row : StudyYearRow) : String :=
  let counts := row.availability.entries.map fun e => e.1.label ++ ":" ++ toString e.2
  "study_year=\"" ++ row.yearOfStudy ++ "\" modules=" ++ toString row.modules ++ " available=" ++
    Text.join "," counts

/-- The lines about a new catalogue. -/
def rebuildLines (files : Nat) (merged : Value) (c : Catalog) (o : Outcome) (out : Path) :
    List String := [
  "snapshots=" ++ toString files,
  "academic_years=" ++ Text.join "," (c.academicYears.map AcademicYear.label),
  "modules=" ++ toString c.modules.length,
  "rules_by_year=" ++ toString o.divergentCount,
  "skipped=" ++ toString o.skipped.length,
  "duplicates=" ++ toString o.repeated.length,
  "config_hash=" ++ Settings.fingerprint merged] ++
  c.summary.rows.map studyYearLine ++
  ["catalog_path=" ++ out.text]

/-- Make the catalogue of all snapshots. Nothing is written unless everything before succeeds. -/
def runRebuild [Pattern.Dialect] (layers : List Path) (directory? out? : Option Path) :
    Run m Unit := do
  let (merged, settings) ← readSettings layers
  let directory := directoryOf settings directory?
  let out := out?.getD (catalogFile settings directory)
  let files ← part .store (Store.discover directory settings.snapshots.filePrefix)
  if files.isEmpty then say "no_data=true"
  else
    let captures ← part .store (Store.loadSnapshots files)
    let scrubber ← readScrubber settings
    let (c, o) ← pureStep .pipeline (rebuildCatalog settings.catalog scrubber captures)
    part .store (Store.saveCatalog out c)
    (rebuildLines files.length merged c o out).forM say

/-! ### Cleaning -/

def cleanedLine (file : Path) (x : Scrub.Report) : String :=
  "cleaned=" ++ file.text ++ " modules=" ++ toString x.modules ++ " sections_removed=" ++
    toString x.sectionsRemoved

/-- Scrub a snapshot file in place. -/
def cleanSnapshot (scrubber : Scrubber) (file : Path) : Run m Unit := do
  let s ← part .store (Store.loadSnapshot file)
  part .store (Store.saveSnapshot file (scrubber.scrubSnapshot s))
  say (cleanedLine file (scrubber.reportSnapshot s))

/-- Scrub the file of the catalogue in place. -/
def cleanCatalog (scrubber : Scrubber) (file : Path) : Run m Unit := do
  let c ← part .store (Store.loadCatalog file)
  part .store (Store.saveCatalog file (scrubber.scrubCatalog c))
  say (cleanedLine file (scrubber.reportCatalog c))

/-- Scrub all snapshots in place, one after the other, and then the catalogue if there is one.
Each file is written before the next one is read, so an error leaves those before it scrubbed. -/
def runClean [Pattern.Dialect] (layers : List Path) (directory? : Option Path) : Run m Unit := do
  let (_, settings) ← readSettings layers
  let directory := directoryOf settings directory?
  let scrubber ← readScrubber settings
  let files ← part .store (Store.discover directory settings.snapshots.filePrefix)
  files.forM (cleanSnapshot scrubber)
  let file := catalogFile settings directory
  if ← (FileAccess.isFile file : m Bool) then cleanCatalog scrubber file
  say ("files_cleaned=" ++ toString files.length)

/-! ### Availability -/

def availabilityWord : Availability → String
  | .available => "available"
  | .unavailable => "unavailable"
  | .indeterminate => "indeterminate"

def basisText : Basis → String
  | .captured year => "captured:" ++ year.label
  | .projected proxy => "projected:" ++ proxy.label
  | .noCongruentCapture => "none"

def entryLine (e : EntryModule) : String :=
  "module_code=" ++ e.merged.record.moduleCode ++
    " section=" ++ Text.quoted e.merged.record.sectionLabel ++
    " availability=" ++ availabilityWord e.decision.availability ++
    " basis=" ++ basisText e.decision.basis

def countsLine (entries : List EntryModule) : String :=
  let count (x : Availability) : String :=
    toString (entries.countP fun e => e.decision.availability == x)
  "available=" ++ count .available ++ " unavailable=" ++ count .unavailable ++
    " indeterminate=" ++ count .indeterminate

/-- Answer which modules run for an entry year in a year of study. -/
def runAvailable (layers : List Path) (file : Path) (entryYear : Int) (studyYear : Nat)
    (cycleLength? : Option Nat) : Run m Unit := do
  let (_, settings) ← readSettings layers
  let cycleLength := cycleLength?.getD settings.availability.cycleLength
  let target ← pureStep .availability (targetYear entryYear studyYear)
  let c ← part .store (Store.loadCatalog file)
  let entries ← pureStep .availability (c.modulesForEntry ⟨entryYear, studyYear, cycleLength⟩)
  (entries.map entryLine).forM say
  say ("target_year=" ++ toString target)
  say ("cycle_length=" ++ toString cycleLength)
  say (countsLine entries)

/-! ### Settings -/

/-- Show the digest of the merged layers and their canonical text. -/
def runShowSettings (layers : List Path) : Run m Unit := do
  let (merged, _) ← readSettings layers
  say ("config_hash=" ++ Settings.fingerprint merged)
  say (Settings.canonicalText merged)

def run [Pattern.Dialect] : Command → Run m Unit
  | rebuild layers directory out => runRebuild layers directory out
  | clean layers directory => runClean layers directory
  | available layers file entryYear studyYear cycleLength =>
    runAvailable layers file entryYear studyYear cycleLength
  | showSettings layers => runShowSettings layers

end

end Command

end Prospectus
