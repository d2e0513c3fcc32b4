import Prospectus.Json.Token

/-!
# Source trees

What a reader of JSON text meets on its way from left to right: a tree whose leaves may be faults,
so that the reader can report the first thing that is wrong, be it the text or what it says.
`Source.ofTokens` builds the tree; `skip` and `toJson` are the two ways to go through it.
-/

namespace Prospectus.Json

/-- How a list of items or members ends: with its bracket, or with a fault, which may differ for a
reader and for one that passes over. -/
inductive Ending
  | closed
  | cut (read skip : Fault)
  deriving DecidableEq

/-- A tree as it is met in a text. -/
inductive Source
  | null
  | bool (b : Bool)
  | num (n : Number)
  | str (s : String)
  /-- Something that cannot be read but can be passed over. -/
  | unreadable
  /-- A fault, for a reader and for one that passes over. -/
  | broken (read skip : Fault)
  | arr (items : List Source) (ending : Ending)
  /-- Members in the order of the text; the name is none if it cannot be read. -/
  | obj (members : List (Option String × Source)) (ending : Ending)
  deriving Inhabited

/-- The first fault of a list for one that passes over it. -/
def Ending.skip : Ending → Except Fault Unit
  | .closed => .ok ()
  | .cut _ f => .error f

/-- The fault at the end of a list for a reader. -/
def Ending.read : Ending → Except Fault Unit
  | .closed => .ok ()
  | .cut f _ => .error f

namespace Source

mutual

def skip : Source → Except Fault Unit
  | .broken _ f => .error f
  | .arr items ending => do skipItems items; ending.skip
  | .obj members ending => do skipMembers members; ending.skip
  | .null | .bool _ | .num _ | .str _ | .unreadable => .ok ()

def skipItems : List Source → Except Fault Unit
  | [] => .ok ()
  | x :: xs => do x.skip; skipItems xs

def skipMembers : List (Option String × Source) → Except Fault Unit
  | [] => .ok ()
  | (_, x) :: ms => do x.skip; skipMembers ms

end

mutual

/-- Read a tree of any shape, members in the order of the text. -/
def toJson : Source → Except Fault Json
  | .null => .ok .null
  | .bool b => .ok (.bool b)
  | .num n => .ok (.num n)
  | .str s => .ok (.str s)
  | .unreadable => .error .malformed
  | .broken f _ => .error f
  | .arr items ending => do
    let xs ← toJsonItems items
    ending.read
    return .arr xs
  | .obj members ending => do
    let ms ← toJsonMembers members
    ending.read
    return .obj ms

def toJsonItems : List Source → Except Fault (List Json)
  | [] => .ok []
  | x :: xs => do
    let y ← x.toJson
    let ys ← toJsonItems xs
    return y :: ys

def toJsonMembers : List (Option String × Source) → Except Fault (List (String × Json))
  | [] => .ok []
  | (none, _) :: _ => .error .malformed
  | (some k, x) :: ms => do
    let y ← x.toJson
    let ys ← toJsonMembers ms
    return (k, y) :: ys

end

mutual

/-- A tree without faults. -/
def ofJson : Json → Source
  | .null => .null
  | .bool b => .bool b
  | .num n => .num n
  | .str s => .str s
  | .arr items => .arr (ofItems items) .closed
  | .obj members => .obj (ofMembers members) .closed

def ofItems : List Json → List Source
  | [] => []
  | x :: xs => ofJson x :: ofItems xs

def ofMembers : List (String × Json) → List (Option String × Source)
  | [] => []
  | (k, x) :: ms => (some k, ofJson x) :: ofMembers ms

end

/-! ### From tokens to a tree -/

/-- An array or object that is still open, what it holds listed the last one first. -/
inductive Frame
  | items (done : List Source)
  | members (done : List (Option String × Source))
  /-- An object whose last name still wants its value. -/
  | member (done : List (Option String × Source)) (name : Option String)

/-- What the next token should be, given the innermost open array or object. -/
inductive Expecting
  | value
  | firstItem
  | afterItem
  | firstName
  | name
  | colon
  | afterMember
  deriving DecidableEq

/-- The most arrays and objects that may be open at once. -/
def maxDepth : Nat := 127

/-- A tree with `below` arrays and objects open around it: what is nested too deep cannot be read,
but can be passed over. -/
def limited (below : Nat) (s : Source) : Source :=
  if below < maxDepth then s
  else match s.skip with
    | .ok () => .unreadable
    | .error f => .broken .malformed f

/-- The whole tree when a part of it ends in a fault: every open array and object around the part
is cut there. -/
def abandon (part : Source) : List Frame → Source
  | [] => part
  | .items done :: frames =>
    abandon (limited frames.length
      (.arr (part :: done).reverse (.cut .malformed .malformed))) frames
  | .members done :: frames =>
    abandon (limited frames.length (.obj done.reverse (.cut .malformed .malformed))) frames
  | .member done name :: frames =>
    abandon (limited frames.length
      (.obj ((name, part) :: done).reverse (.cut .malformed .malformed))) frames

/-- The whole tree when the innermost open array or object is cut by a fault. -/
def cut (read skip : Fault) : List Frame → Source
  | [] => .broken read skip
  | .items done :: frames =>
    abandon (limited frames.length (.arr done.reverse (.cut read skip))) frames
  | .members done :: frames =>
    abandon (limited frames.length (.obj done.reverse (.cut read skip))) frames
  | .member done name :: frames =>
    abandon (limited frames.length
      (.obj ((name, .broken read skip) :: done).reverse .closed)) frames

/-- Put a complete value into the innermost open array or object. Without one the value is the
whole tree. -/
def place (value : Source) : List Frame → Sum Source (Expecting × List Frame)
  | [] => .inl value
  | .items done :: frames => .inr (.afterItem, .items (value :: done) :: frames)
  | .members done :: frames => .inr (.afterMember, .members done :: frames)
  | .member done name :: frames => .inr (.afterMember, .members ((name, value) :: done) :: frames)

/-- Close the innermost open array or object. -/
def close : List Frame → Sum Source (Expecting × List Frame)
  | [] => .inl (.broken .malformed .malformed)
  | .items done :: frames => place (limited frames.length (.arr done.reverse .closed)) frames
  | .members done :: frames => place (limited frames.length (.obj done.reverse .closed)) frames
  | .member done name :: frames =>
    .inl (abandon (.broken .malformed .malformed) (.member done name :: frames))

/-- A token where a value should stand. -/
def valueStep (frames : List Frame) : Token → Sum Source (Expecting × List Frame)
  | .openArray => .inr (.firstItem, .items [] :: frames)
  | .openObject => .inr (.firstName, .members [] :: frames)
  | .null => place .null frames
  | .bool b => place (.bool b) frames
  | .num n => place (.num n) frames
  | .str s => place (.str s) frames
  | .tooLarge | .unpaired => place .unreadable frames
  | .brokenText r s | .broken r s => .inl (abandon (.broken r s) frames)
  | .closeObject | .closeArray | .comma | .colon =>
    .inl (abandon (.broken .malformed .malformed) frames)

/-- A token where the name of a member should stand. -/
def nameStep (frames : List Frame) (token : Token) : Sum Source (Expecting × List Frame) :=
  let named (name : Option String) : Sum Source (Expecting × List Frame) :=
    match frames with
    | .members done :: frames => .inr (.colon, .member done name :: frames)
    | _ => .inl (cut .malformed .malformed frames)
  match token with
  | .str s => named (some s)
  | .unpaired => named none
  | .brokenText r s => .inl (cut r s frames)
  | _ => .inl (cut .malformed .malformed frames)

/-- One more token: the whole tree if that decides it, else what to expect next. -/
def tokenStep (expecting : Expecting) (frames : List Frame) (token : Token) :
    Sum Source (Expecting × List Frame) :=
  match expecting, token with
  | .value, token => valueStep frames token
  | .firstItem, .closeArray => close frames
  | .firstItem, token => valueStep frames token
  -- after a comma a value has to follow: the closing bracket is no longer allowed
  | .afterItem, .comma => .inr (.value, frames)
  | .afterItem, .closeArray => close frames
  | .afterItem, _ => .inl (cut .malformed .malformed frames)
  | .firstName, .closeObject => close frames
  | .firstName, token => nameStep frames token
  | .name, token => nameStep frames token
  | .colon, .colon => .inr (.value, frames)
  | .colon, _ => .inl (cut .malformed .malformed frames)
  | .afterMember, .comma => .inr (.name, frames)
  | .afterMember, .closeObject => close frames
  | .afterMember, _ => .inl (cut .malformed .malformed frames)

/-- The whole tree when the tokens end. -/
def tokensEnd (expecting : Expecting) (frames : List Frame) : Source :=
  match expecting with
  | .value => abandon (.broken .ended .ended) frames
  | _ => cut .ended .ended frames

/-- The tree of tokens, and the tokens after it. -/
def build (expecting : Expecting) (frames : List Frame) : List Token → Source × List Token
  | [] => (tokensEnd expecting frames, [])
  | token :: tokens =>
    match tokenStep expecting frames token with
    | .inl source => (source, tokens)
    | .inr (expecting, frames) => build expecting frames tokens

/-- The tree at the start of a list of tokens, and the tokens after it. -/
def ofTokens (tokens : List Token) : Source × List Token := build .value [] tokens

end Source

end Prospectus.Json
