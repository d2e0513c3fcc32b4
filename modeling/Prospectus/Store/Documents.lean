import Prospectus.Pattern.Reader
import Prospectus.Pattern.Search
import Prospectus.Record.Codec
import Prospectus.Store.Access

/-!
# Documents in files

Each snapshot is a file of a directory, named after its academic year; the catalogue is a file of
its own. Documents are written with one item a line and a line break at the end.
-/

namespace Prospectus.Store

open Json (Decoder DecodeError)

/-- What a file holds. -/
inductive DocumentKind
  | snapshot
  | catalog
  deriving DecidableEq

/-- The word for a kind of document in messages. -/
def DocumentKind.word : DocumentKind → String
  | snapshot => "snapshot"
  | catalog => "catalog"

/-- Why a document cannot be found, read or written. The messages name the expression, the directory
or the file, and leave out the cause. -/
inductive StoreError
  /-- The expression that says which names are those of snapshots makes no pattern. -/
  | naming (expression : String)
  | listing (directory : Path) (cause : FileError)
  | reading (kind : DocumentKind) (file : Path) (cause : FileError)
  | decoding (kind : DocumentKind) (file : Path) (cause : DecodeError)
  | makingDirectory (directory : Path) (cause : FileError)
  | writing (kind : DocumentKind) (file : Path) (cause : FileError)
  deriving DecidableEq

def StoreError.message : StoreError → String
  | .naming expression => "invalid snapshot name pattern: " ++ expression
  | .listing directory _ => "read snapshot dir failed: " ++ directory.text
  | .reading kind file _ => "read " ++ kind.word ++ " failed: " ++ file.text
  | .decoding kind file _ => "parse " ++ kind.word ++ " failed: " ++ file.text
  | .makingDirectory directory _ => "create dir failed: " ++ directory.text
  | .writing kind file _ => "write " ++ kind.word ++ " failed: " ++ file.text

/-! ### Names of snapshot files -/

/-- What stands at the end of the name of every document. -/
def extension : String := ".json"

/-- The name of the snapshot of an academic year. -/
def snapshotName (filePrefix : String) (year : AcademicYear) : String :=
  filePrefix ++ year.slug ++ extension

/-- The expression that says which names are those of snapshot files: the prefix as it stands, four
digits, an underscore, some digits and the extension. Digits of any script count. -/
def snapshotExpression (filePrefix : String) : List Char :=
  '^' :: Pattern.escaped filePrefix.toList ++ "\\d\x7b4\x7d_\\d+\\.json$".toList

/-- The pattern of the names of snapshot files; none if the prefix is too long for one. How long it
may be is for the dialect to say. -/
def snapshotPattern? [Pattern.Dialect] (filePrefix : String) : Option Pattern :=
  Pattern.ofText? (String.ofList (snapshotExpression filePrefix)) false

/-! ### Finding, reading and writing -/

section

variable {m : Type → Type} [Monad m] [FileAccess m]

/-- What a step on files gives, or the error that it stands for. -/
def attempt {α : Type} (asError : FileError → StoreError) (x : m (Except FileError α)) :
    ExceptT StoreError m α :=
  ExceptT.mk (return (← x).mapError asError)

/-- The snapshot files of a directory by ascending name. A directory that is not there has none. The
pattern is made before the directory is listed, so a prefix without one is an error even in an empty
directory. -/
def discover [Pattern.Dialect] (directory : Path) (filePrefix : String) :
    ExceptT StoreError m (List Path) := do
  if !(← (FileAccess.contains directory : m Bool)) then return []
  match snapshotPattern? filePrefix with
  | none => throw (.naming (String.ofList (snapshotExpression filePrefix)))
  | some p =>
    let names ← attempt (.listing directory) (FileAccess.namesIn directory)
    let names := (names.filter fun name => p.occursIn name.toList).mergeSort
      fun a b => (compare a b).isLE
    let files := names.map fun name => directory.join ⟨name⟩
    files.filterM fun file => (FileAccess.isFile file : m Bool)

def load {α : Type} (kind : DocumentKind) (d : Decoder α) (file : Path) :
    ExceptT StoreError m α := do
  let text ← attempt (.reading kind file) (FileAccess.readText file)
  match Json.decodeText d text with
  | .ok x => return x
  | .error e => throw (.decoding kind file e)

/-- The text of a document in a file. -/
def documentText (j : Json) : String := j.indented ++ "\n"

/-- Write a document; its directory is made if it is missing. If the file cannot be written after
that, the directory stays. -/
def save (kind : DocumentKind) (file : Path) (j : Json) : ExceptT StoreError m Unit := do
  match file.parent? with
  | some directory =>
    if !directory.text.isEmpty then
      attempt (.makingDirectory directory) (FileAccess.makeDirectory directory)
  | none => pure ()
  attempt (.writing kind file) (FileAccess.writeText file (documentText j))

def loadSnapshot (file : Path) : ExceptT StoreError m Snapshot :=
  load .snapshot (Snapshot.decode .text) file

/-- Read snapshots in order; the first that cannot be read is the error. -/
def loadSnapshots (files : List Path) : ExceptT StoreError m (List Snapshot) :=
  files.mapM loadSnapshot

def loadCatalog (file : Path) : ExceptT StoreError m Catalog :=
  load .catalog (Catalog.decode .text) file

def saveSnapshot (file : Path) (s : Snapshot) : ExceptT StoreError m Unit :=
  save .snapshot file s.toJson

def saveCatalog (file : Path) (c : Catalog) : ExceptT StoreError m Unit :=
  save .catalog file c.toJson

/-- Write snapshots into a directory under the names of their academic years; the files in
order. -/
def saveSnapshots (directory : Path) (filePrefix : String) (snapshots : List Snapshot) :
    ExceptT StoreError m (List Path) :=
  snapshots.mapM fun s => do
    let file := directory.join ⟨snapshotName filePrefix s.academicYear⟩
    saveSnapshot file s
    return file

end

end Prospectus.Store
