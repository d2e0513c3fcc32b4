import Prospectus.Store.FileTree

/-!
# Access to files

What a command needs of the files it works on. Commands are written for any monad with this
access; a file tree that is passed along is one. `Session.run_readText` and the lemmas beside it
say that reading does not change the tree.
-/

namespace Prospectus.Store

/-- Reading and writing files. Nothing is asked of an instance: what a file tree does with these
operations is proved of `Session`, and the machine is another instance. -/
class FileAccess (m : Type → Type) where
  contains : Path → m Bool
  isFile : Path → m Bool
  namesIn : Path → m (Except FileError (List String))
  readText : Path → m (Except FileError String)
  /-- Make a directory and those above it where they are missing. -/
  makeDirectory : Path → m (Except FileError Unit)
  /-- Write a text as a file, in place of an older one. -/
  writeText : Path → String → m (Except FileError Unit)

/-- Work on a file tree. -/
abbrev Session := StateM FileTree

namespace Session

/-- Write a text as a file; the tree stays as it is if that cannot be done. -/
def writeText (p : Path) (text : String) : Session (Except FileError Unit) := fun t =>
  match t.writeText p text with
  | .ok t => (.ok (), t)
  | .error e => (.error e, t)

/-- Make a directory and those above it where they are missing. -/
def makeDirectory (p : Path) : Session (Except FileError Unit) := fun t =>
  let (t, result) := t.makeDirectory p
  (result, t)

instance : FileAccess Session where
  contains p := return (← get).contains p
  isFile p := return (← get).isFile p
  namesIn p := return (← get).namesIn p
  readText p := return (← get).readText p
  makeDirectory := makeDirectory
  writeText := writeText

/-! ### Reading leaves the tree as it is -/

@[simp] theorem run_contains (p : Path) (t : FileTree) :
    (FileAccess.contains p : Session Bool).run t = (t.contains p, t) := rfl

@[simp] theorem run_isFile (p : Path) (t : FileTree) :
    (FileAccess.isFile p : Session Bool).run t = (t.isFile p, t) := rfl

@[simp] theorem run_namesIn (p : Path) (t : FileTree) :
    (FileAccess.namesIn p : Session _).run t = (t.namesIn p, t) := rfl

@[simp] theorem run_readText (p : Path) (t : FileTree) :
    (FileAccess.readText p : Session _).run t = (t.readText p, t) := rfl

end Session

end Prospectus.Store
