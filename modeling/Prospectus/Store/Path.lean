import Prospectus.Text.Pieces

/-!
# Paths

A path is kept as it is written and taken apart only where it is followed: into steps up and steps
into what has a name. Several paths may lead to the same place, as `data` and `./data/` do.
-/

namespace Prospectus.Store

/-- A path as it is written. -/
structure Path where
  text : String
  deriving DecidableEq, Inhabited

namespace Path

/-- The path begins at the root. -/
def isAbsolute (p : Path) : Bool := Text.startsWith p.text.toList ['/']

/-- One path continued by another one, with one slash between them if there is none yet. An
absolute path does not continue anything. -/
def join (p q : Path) : Path :=
  if q.isAbsolute || p.text.isEmpty then q
  else if p.text.toList.getLast? == some '/' then ⟨p.text ++ q.text⟩
  else ⟨p.text ++ "/" ++ q.text⟩

/-! ### The directory of a path -/

/-- Take the last name away, reading from the end. -/
def dropName : List Char → List Char
  | [] => []
  | '/' :: cs => '/' :: cs
  | _ :: cs => dropName cs

/-- Take slashes, and steps that stay where they are, away from the end, reading from the end. A
slash at the very beginning stays, and so does a step at the very beginning. -/
def dropIdle : List Char → List Char
  | ['/'] => ['/']
  | '/' :: cs => dropIdle cs
  | ['.', '/'] => ['/']
  | '.' :: '/' :: cs => dropIdle cs
  | cs => cs

/-- The directory that the last step of a path starts from; the root has none, and neither has the
empty path. -/
def parent? (p : Path) : Option Path :=
  match dropIdle p.text.toList.reverse with
  | [] | ['/'] => none
  | cs => some ⟨String.ofList (dropIdle (dropName cs)).reverse⟩

/-! ### Steps -/

/-- One step of a path. -/
inductive Step
  | up
  | into (name : String)
  deriving DecidableEq

/-- The parts of a path between its slashes. -/
def parts (p : Path) : List (List Char) := Text.splitOn ['/'] p.text.toList

/-- The step that a part of a path stands for. Empty parts and single dots stay where they are. -/
def stepOf? (part : List Char) : Option Step :=
  if part = [] ∨ part = ['.'] then none
  else if part = ['.', '.'] then some .up
  else some (.into (String.ofList part))

def steps (p : Path) : List Step := p.parts.filterMap stepOf?

/-- Only a directory can be at the end of the path, since its last part stays where it is. -/
def endsInDirectory (p : Path) : Bool :=
  match p.parts.getLast? with
  | none => true
  | some part => part == [] || part == ['.']

/-- A null character cannot be in a path. -/
def isSound (p : Path) : Bool := !p.text.toList.contains '\x00'

end Path

end Prospectus.Store
