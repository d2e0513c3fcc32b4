import Prospectus.Dict.Basic
import Prospectus.Store.Path

/-!
# File trees

The files and directories below a working directory. Each has a place, which is the list of names
that lead to it. A path is followed from the working directory, one step after the other; an
absolute path, and one that climbs out of the working directory, leads nowhere.
-/

namespace Prospectus.Store

/-- What stands at a place. -/
inductive Entry
  | file (bytes : ByteArray)
  | directory

/-- Files are the same if their bytes are. -/
instance : DecidableEq Entry
  | .file a, .file b =>
    match ByteArray.decEq a b with
    | isTrue h => isTrue (congrArg Entry.file h)
    | isFalse h => isFalse fun he => h (Entry.file.inj he)
  | .directory, .directory => isTrue rfl
  | .file _, .directory => isFalse nofun
  | .directory, .file _ => isFalse nofun

/-- Why a path cannot be read or written. -/
inductive FileError
  | notFound
  | notDirectory
  | isDirectory
  | alreadyExists
  /-- The bytes of a file are no text. -/
  | notText
  /-- The path holds a null character. -/
  | badPath
  deriving DecidableEq

/-- Everything below a working directory, by place. The working directory itself has no entry.
Nothing keeps an entry from standing below a file or below nothing; the operations on paths never
put one there. -/
structure FileTree where
  entries : Dict (List String) Entry
  deriving DecidableEq

namespace FileTree

/-- A working directory with nothing in it. -/
def empty : FileTree := ⟨∅⟩

instance : EmptyCollection FileTree := ⟨empty⟩

def entryAt? (t : FileTree) (place : List String) : Option Entry :=
  if place = [] then some .directory else t.entries.find? place

def put (t : FileTree) (place : List String) (e : Entry) : FileTree :=
  ⟨t.entries.insert place e⟩

/-- After `put`, the entry stands at its place and all others stay where they are. The working
directory is no place for an entry. -/
theorem entryAt?_put (t : FileTree) {place : List String} (h : place ≠ []) (e : Entry)
    (other : List String) :
    (t.put place e).entryAt? other = if other = place then some e else t.entryAt? other := by
  by_cases ho : other = []
  · subst ho
    simp [entryAt?, Ne.symm h]
  · simp [entryAt?, put, ho, Dict.find?_insert]

/-! ### Following paths -/

/-- Follow steps from a place. Only the last step may lead to a place where nothing stands. -/
def follow (t : FileTree) (place : List String) : List Path.Step → Except FileError (List String)
  | [] => .ok place
  | step :: steps =>
    match t.entryAt? place with
    | none => .error .notFound
    | some (.file _) => .error .notDirectory
    | some .directory =>
      match step with
      | .into name => t.follow (place ++ [name]) steps
      | .up => if place = [] then .error .notFound else t.follow place.dropLast steps

/-- A path that leads out of the tree, or is no path at all. Steps that climb out of the tree are
found when they are followed. -/
def checkPath (p : Path) : Except FileError Unit :=
  if !p.isSound then .error .badPath
  else if p.text.isEmpty || p.isAbsolute then .error .notFound
  else .ok ()

def placeOf (t : FileTree) (p : Path) : Except FileError (List String) := do
  checkPath p
  t.follow [] p.steps

/-- The entry that a path leads to. A path that ends in a slash or a dot leads to directories only.
-/
def entry (t : FileTree) (p : Path) : Except FileError Entry := do
  match t.entryAt? (← t.placeOf p) with
  | none => throw .notFound
  | some .directory => return .directory
  | some (.file bytes) => if p.endsInDirectory then throw .notDirectory else return .file bytes

/-! ### Reading -/

def contains (t : FileTree) (p : Path) : Bool := (t.entry p).isOk

def isFile (t : FileTree) (p : Path) : Bool :=
  match t.entry p with
  | .ok (.file _) => true
  | _ => false

/-- The names of what stands in a directory, ascending. -/
def namesIn (t : FileTree) (p : Path) : Except FileError (List String) := do
  match ← t.entry p with
  | .file _ => throw .notDirectory
  | .directory =>
    let place ← t.placeOf p
    return t.entries.keys.filterMap fun key =>
      match key.getLast? with
      | some name => if key.dropLast = place then some name else none
      | none => none

def readText (t : FileTree) (p : Path) : Except FileError String := do
  match ← t.entry p with
  | .directory => throw .isDirectory
  | .file bytes =>
    match String.fromUTF8? bytes with
    | some text => return text
    | none => throw .notText

/-! ### Writing -/

/-- Follow steps from a place, making a directory wherever nothing stands; the tree, and the error
that stopped it. -/
def makeAlong (t : FileTree) (place : List String) :
    List Path.Step → FileTree × Except FileError Unit
  | [] => (t, .ok ())
  | .up :: steps =>
    if place = [] then (t, .error .notFound) else t.makeAlong place.dropLast steps
  | .into name :: steps =>
    let place := place ++ [name]
    match t.entryAt? place with
    | some .directory => t.makeAlong place steps
    | some (.file _) => (t, .error (if steps.isEmpty then .alreadyExists else .notDirectory))
    | none => (t.put place .directory).makeAlong place steps

/-- Make a directory and those above it where they are missing; the tree, and the error that
stopped it. Directories that were made before an error stay. For the empty path there is nothing
to make. -/
def makeDirectory (t : FileTree) (p : Path) : FileTree × Except FileError Unit :=
  if p.text.isEmpty then (t, .ok ())
  else match checkPath p with
    | .error e => (t, .error e)
    | .ok () => t.makeAlong [] p.steps

/-- Write a file, in place of an older one. Its directory has to be there. -/
def writeBytes (t : FileTree) (p : Path) (bytes : ByteArray) : Except FileError FileTree := do
  let place ← t.placeOf p
  if p.endsInDirectory then throw .isDirectory
  match t.entryAt? place with
  | some .directory => throw .isDirectory
  | _ => return t.put place (.file bytes)

def writeText (t : FileTree) (p : Path) (text : String) : Except FileError FileTree :=
  t.writeBytes p text.toUTF8

/-! ### Listing -/

/-- How a listing shows an entry: a slash follows the place of a directory. -/
def shown : List String × Entry → String
  | (place, .directory) => Text.join "/" place ++ "/"
  | (place, .file _) => Text.join "/" place

/-- Everything in the tree, ascending as it is shown. What the files hold is not shown. -/
def listing (t : FileTree) : List String :=
  (t.entries.entries.map shown).mergeSort fun a b => (compare a b).isLE

end FileTree

end Prospectus.Store
