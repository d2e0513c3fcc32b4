import Prospectus.Availability.Decision
import Prospectus.Json.Decode
import Prospectus.Scrub.Basic

/-!
# Settings

What the programs can be told: how the catalogue is headed and where it goes, where the snapshots
are, the length of the curriculum cycle, and what to scrub. Everything has a default. A group of
settings is an object, whose unknown members are passed over, or an array that lists the settings
in order.
-/

namespace Prospectus

open Json (Decoder DecodeError Source Value)

/-- What the catalogue is headed by, and its file. -/
structure CatalogSettings where
  /-- Taken from the snapshots if not given. -/
  course : Option String := none
  /-- Taken from the snapshots if not given. -/
  school : Option String := none
  outputFile : String := "uea_modules_combined.json"
  deriving DecidableEq

/-- Where the snapshots are: their directory, and how the names of their files begin. -/
structure SnapshotSettings where
  directory : String := "data"
  filePrefix : String := "uea_modules_"
  deriving DecidableEq

/-- The length of the curriculum cycle in years. -/
structure AvailabilitySettings where
  cycleLength : Nat := defaultCycleLength
  deriving DecidableEq

structure Settings where
  catalog : CatalogSettings := {}
  snapshots : SnapshotSettings := {}
  availability : AvailabilitySettings := {}
  scrub : Scrub.Rules := {}
  deriving DecidableEq

/-! ### Reading -/

namespace CatalogSettings

def read (x : CatalogSettings) (name : String) (s : Source) :
    Except DecodeError CatalogSettings :=
  if name = "course" then return { x with course := ← Source.optional Source.text s }
  else if name = "school" then return { x with school := ← Source.optional Source.text s }
  else if name = "output_file" then return { x with outputFile := ← s.text }
  else do
    s.ignore
    return x

def decode : Decoder CatalogSettings
  | .arr items ending => do
    let default : CatalogSettings := {}
    let text := Source.optional Source.text
    let course ← Source.fieldAt text (.ok default.course) items ending 0
    let school ← Source.fieldAt text (.ok default.school) items ending 1
    let outputFile ← Source.fieldAt Source.text (.ok default.outputFile) items ending 2
    Source.endItems .tree items ending 3
    return { course, school, outputFile }
  | s => s.foldMembers {} read

end CatalogSettings

namespace SnapshotSettings

def read (x : SnapshotSettings) (name : String) (s : Source) :
    Except DecodeError SnapshotSettings :=
  if name = "dir" then return { x with directory := ← s.text }
  else if name = "prefix" then return { x with filePrefix := ← s.text }
  else do
    s.ignore
    return x

def decode : Decoder SnapshotSettings
  | .arr items ending => do
    let default : SnapshotSettings := {}
    let directory ← Source.fieldAt Source.text (.ok default.directory) items ending 0
    let filePrefix ← Source.fieldAt Source.text (.ok default.filePrefix) items ending 1
    Source.endItems .tree items ending 2
    return { directory, filePrefix }
  | s => s.foldMembers {} read

end SnapshotSettings

namespace AvailabilitySettings

/-- The longest cycle that can be set. -/
def longestCycle : Nat := 0xFFFFFFFF

/-- Read the length of a cycle: an integer from zero to the longest cycle. -/
def readCycleLength : Decoder Nat
  | .num (.integer n _) =>
    if 0 ≤ n ∧ n ≤ longestCycle then .ok n.toNat else .error .invalidValue
  | s => s.mismatch

def read (x : AvailabilitySettings) (name : String) (s : Source) :
    Except DecodeError AvailabilitySettings :=
  if name = "cycle_length" then return { x with cycleLength := ← readCycleLength s }
  else do
    s.ignore
    return x

def decode : Decoder AvailabilitySettings
  | .arr items ending => do
    let cycleLength ← Source.fieldAt readCycleLength (.ok defaultCycleLength) items ending 0
    Source.endItems .tree items ending 1
    return { cycleLength }
  | s => s.foldMembers {} read

end AvailabilitySettings

namespace Scrub.Rules

def read (x : Rules) (name : String) (s : Source) : Except DecodeError Rules :=
  if name = "personal_literals" then
    return { x with personalLiterals := ← s.list Source.text }
  else if name = "personal_patterns" then
    return { x with personalPatterns := ← s.list Source.text }
  else do
    s.ignore
    return x

def decode : Decoder Rules
  | .arr items ending => do
    let texts := Source.list Source.text
    let personalLiterals ← Source.fieldAt texts (.ok []) items ending 0
    let personalPatterns ← Source.fieldAt texts (.ok []) items ending 1
    Source.endItems .tree items ending 2
    return { personalLiterals, personalPatterns }
  | s => s.foldMembers {} read

end Scrub.Rules

namespace Settings

def read (x : Settings) (name : String) (s : Source) : Except DecodeError Settings :=
  if name = "catalog" then return { x with catalog := ← CatalogSettings.decode s }
  else if name = "snapshots" then return { x with snapshots := ← SnapshotSettings.decode s }
  else if name = "availability" then
    return { x with availability := ← AvailabilitySettings.decode s }
  else if name = "scrub" then return { x with scrub := ← Scrub.Rules.decode s }
  else do
    s.ignore
    return x

def decode : Decoder Settings
  | .arr items ending => do
    let catalog ← Source.fieldAt CatalogSettings.decode (.ok {}) items ending 0
    let snapshots ← Source.fieldAt SnapshotSettings.decode (.ok {}) items ending 1
    let availability ← Source.fieldAt AvailabilitySettings.decode (.ok {}) items ending 2
    let scrub ← Source.fieldAt Scrub.Rules.decode (.ok {}) items ending 3
    Source.endItems .tree items ending 4
    return { catalog, snapshots, availability, scrub }
  | s => s.foldMembers {} read

end Settings

end Prospectus
