import Prospectus.Json.Normal
import Prospectus.Json.Source

/-!
# Reading trees into types

Decoders go through a source tree from left to right and report the first thing that is wrong.
A fault of the text and a tree of the wrong kind are told apart.
-/

namespace Prospectus.Json

/-- Why a document cannot be decoded. -/
inductive DecodeError
  | fault (f : Fault)
  /-- A tree of the wrong kind. -/
  | invalidType
  /-- A number out of range. -/
  | invalidValue
  /-- A list of the wrong length. -/
  | invalidLength (count : Nat)
  | missingField (name : String)
  | duplicateField (name : String)
  deriving DecidableEq

/-- A reader of one kind of thing. -/
abbrev Decoder (α : Type) := Source → Except DecodeError α

/-- Where a source tree comes from: from a text, or from a tree that was given as a value. -/
inductive Form
  | text
  | tree
  deriving DecidableEq

namespace DecodeError

/-- Whether a document is well-formed text with the wrong content, is not well-formed, or ended
early. -/
def category : DecodeError → String
  | .fault .ended => "eof"
  | .fault .malformed => "syntax"
  | _ => "data"

/-- What is wrong with the content of a well-formed text. -/
def message? : DecodeError → Option String
  | .fault _ => none
  | .invalidType => some "invalid type"
  | .invalidValue => some "invalid value"
  | .invalidLength n => some s!"invalid length {n}"
  | .missingField name => some ("missing field `" ++ name ++ "`")
  | .duplicateField name => some ("duplicate field `" ++ name ++ "`")

/-- A fault of the text as an error. -/
def ofFault {α : Type} : Except Fault α → Except DecodeError α
  | .ok x => .ok x
  | .error f => .error (.fault f)

end DecodeError

namespace Source

open DecodeError

/-- The error of a tree that is not of the kind wanted: a fault of a scalar comes first. -/
def mismatch {α : Type} : Decoder α
  | .unreadable => .error (.fault .malformed)
  | .broken f _ => .error (.fault f)
  | _ => .error .invalidType

/-- Read a tree of any shape, members in the order of the text. -/
def any : Decoder Json := fun s => ofFault s.toJson

/-- Read a tree of any shape into normal form. -/
def value : Decoder Value := fun s => (s.any).map Value.ofJson

def ignore : Decoder Unit := fun s => ofFault s.skip

def text : Decoder String
  | .str s => .ok s
  | s => s.mismatch

/-- Read a text or null, which counts as the empty text. -/
def textOrNull : Decoder String
  | .null => .ok ""
  | s => s.text

/-- Read null as none and anything else as `d` reads it. -/
def optional {α : Type} (d : Decoder α) : Decoder (Option α)
  | .null => .ok none
  | s => (d s).map some

/-- Go through the items of an array. -/
def list {α : Type} (d : Decoder α) : Decoder (List α)
  | .arr items ending => do
    let xs ← items.mapM d
    ofFault ending.read
    return xs
  | s => s.mismatch

/-- Go through the members of an object in the order of the text. -/
def foldMembers {σ : Type} (start : σ) (step : σ → String → Source → Except DecodeError σ) :
    Decoder σ
  | .obj members ending => do
    let last ← members.foldlM (fun state m =>
      match m.1 with
      | some name => step state name m.2
      | none => .error (.fault .malformed)) start
    ofFault ending.read
    return last
  | s => s.mismatch

/-- Read a field that may stand only once, given what was found of it before. -/
def once {α : Type} (found : Option α) (name : String) (d : Decoder α) (s : Source) :
    Except DecodeError (Option α) :=
  match found with
  | some _ => .error (.duplicateField name)
  | none => (d s).map some

/-- A field that has to be there. -/
def required {α : Type} (found : Option α) (name : String) : Except DecodeError α :=
  match found with
  | some x => .ok x
  | none => .error (.missingField name)

/-- Read an object whose members are all of one kind; of a repeated name the last member stays. -/
def dict {α : Type} (d : Decoder α) : Decoder (Dict String α) :=
  foldMembers ∅ fun found name s => return found.insert name (← d s)

/-- The item at a position of an array; none after the last one. -/
def item? (items : List Source) (ending : Ending) (i : Nat) : Except DecodeError (Option Source) :=
  match items[i]? with
  | some s => .ok (some s)
  | none => (ofFault ending.read).map fun _ => none

/-- The end of an array that should have `count` items: further items are a fault of a text, and
the wrong length of a value. -/
def endItems (form : Form) (items : List Source) (ending : Ending) (count : Nat) :
    Except DecodeError Unit :=
  if count < items.length then
    match form with
    | .text => .error (.fault .malformed)
    | .tree => .error (.invalidLength items.length)
  else ofFault ending.read

/-- The field at a position of an array that lists the fields of something; a missing one is
`default`. -/
def fieldAt {α : Type} (d : Decoder α) (default : Except DecodeError α) (items : List Source)
    (ending : Ending) (i : Nat) : Except DecodeError α := do
  match ← item? items ending i with
  | some s => d s
  | none => default

end Source

/-- Decode a text: the tree first, then nothing may follow. -/
def decodeText {α : Type} (d : Decoder α) (text : String) : Except DecodeError α := do
  let (source, rest) := Source.ofTokens (Token.scan text.toList)
  let x ← d source
  if rest.isEmpty then return x else throw (.fault .malformed)

/-- Decode a tree that was given as a value; its members are met by ascending name. -/
def decodeValue {α : Type} (d : Decoder α) (v : Value) : Except DecodeError α :=
  d (Source.ofJson v.tree)

end Prospectus.Json
