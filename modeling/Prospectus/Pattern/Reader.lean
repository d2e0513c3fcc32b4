import Prospectus.Pattern.Meaning
import Prospectus.Text.Pieces

/-!
# Reading patterns

`Pattern.ofText?` reads a regular expression. The reader goes from left to right; `steps` bounds
it by the length of the text, since every round takes a character or ends.
-/

namespace Prospectus.Pattern

/-- What is still to be read, whether white space is passed over, and the names of groups. -/
structure ReaderState where
  rest : List Char
  verbose : Bool := false
  names : List (List Char) := []

/-- A reader of a part of a pattern. -/
abbrev Reader := StateT ReaderState Option

namespace Reader

/-- The next character, which stays. -/
def peek? : Reader (Option Char) := return (← get).rest.head?

def next : Reader Char := do
  match (← get).rest with
  | [] => failure
  | c :: cs =>
    modify ({ · with rest := cs })
    return c

/-- Take a text if it comes next. -/
def taken (text : List Char) : Reader Bool := do
  match Text.afterLead? text (← get).rest with
  | some cs =>
    modify ({ · with rest := cs })
    return true
  | none => return false

/-- Drop white space and comments up to the end of the line, which count for nothing. -/
def dropVerbose : (steps : Nat) → List Char → List Char
  | 0, cs => cs
  | _, [] => []
  | steps + 1, c :: cs =>
    if Text.isBlank c then dropVerbose steps cs
    else if c = '#' then dropVerbose steps ((cs.dropWhile (· != '\n')).drop 1)
    else c :: cs

/-- Pass over white space and comments if they count for nothing. -/
def space : Reader Unit :=
  modify fun s => if s.verbose then { s with rest := dropVerbose s.rest.length s.rest } else s

/-- Take the next character and the white space after it. -/
def nextSpaced : Reader Char := do
  let c ← next
  space
  return c

/-! ### Numbers -/

def hexDigit? (c : Char) : Option Nat :=
  if c.isDigit then some (c.toNat - '0'.toNat)
  else if 'a' ≤ c ∧ c ≤ 'f' then some (c.toNat - 'a'.toNat + 10)
  else if 'A' ≤ c ∧ c ≤ 'F' then some (c.toNat - 'A'.toNat + 10)
  else none

def ofCodePoint (n : Nat) : Reader Char :=
  if h : n.isValidChar then return Char.ofNatAux n h else failure

/-- So many hexadecimal digits. -/
def hexFixed : (count : Nat) → (value : Nat) → Reader Nat
  | 0, value => return value
  | count + 1, value => do
    match hexDigit? (← nextSpaced) with
    | some d => hexFixed count (16 * value + d)
    | none => failure

/-- Hexadecimal digits up to a closing brace. -/
def hexBraced : (steps : Nat) → (value : Option Nat) → Reader Nat
  | 0, _ => failure
  | steps + 1, value => do
    space
    let c ← next
    if c = '}' then
      match value with
      | some n => if n < 0x100000000 then return n else failure
      | none => failure
    else match hexDigit? c with
      | some d => hexBraced steps (some (16 * value.getD 0 + d))
      | none => failure

/-- A code point in hexadecimal digits: so many, or any number of them in braces. -/
def codePoint (count : Nat) : Reader Char := do
  space
  if ← taken ['{'] then ofCodePoint (← hexBraced ((← get).rest.length + 1) none)
  else ofCodePoint (← hexFixed count 0)

/-- Drop the white space that may stand around a number, whether or not it counts elsewhere. -/
def blanks : Reader Unit := modify fun s => { s with rest := s.rest.dropWhile Text.isBlank }

def digits : (steps : Nat) → Reader (List Char)
  | 0 => return []
  | steps + 1 => do
    match ← peek? with
    | some c =>
      if c.isDigit then
        let _ ← nextSpaced
        return c :: (← digits steps)
      else return []
    | none => return []

/-- A decimal number below `2 ^ 32`; none if there is no digit. -/
def decimal : Reader (Option Nat) := do
  blanks
  let ds ← digits (← get).rest.length
  blanks
  if ds.isEmpty then return none
  let n := ds.foldl (fun n c => 10 * n + (c.toNat - '0'.toNat)) 0
  if n < 0x100000000 then return some n else failure

/-! ### Named classes -/

/-- The ASCII classes that are named between `[:` and `:]`. -/
def asciiClasses : List (String × List (Nat × Nat)) :=
  [("alnum", [(0x30, 0x39), (0x41, 0x5A), (0x61, 0x7A)]),
    ("alpha", [(0x41, 0x5A), (0x61, 0x7A)]),
    ("ascii", [(0x00, 0x7F)]),
    ("blank", [(0x09, 0x09), (0x20, 0x20)]),
    ("cntrl", [(0x00, 0x1F), (0x7F, 0x7F)]),
    ("digit", [(0x30, 0x39)]),
    ("graph", [(0x21, 0x7E)]),
    ("lower", [(0x61, 0x7A)]),
    ("print", [(0x20, 0x7E)]),
    ("punct", [(0x21, 0x2F), (0x3A, 0x40), (0x5B, 0x60), (0x7B, 0x7E)]),
    ("space", [(0x09, 0x0D), (0x20, 0x20)]),
    ("upper", [(0x41, 0x5A)]),
    ("word", asciiWord),
    ("xdigit", [(0x30, 0x39), (0x41, 0x46), (0x61, 0x66)])]

/-- Cut a text at the first occurrence of a mark. -/
def cutAt? (mark : List Char) (cs : List Char) : Option (List Char × List Char) :=
  match Text.splitOn mark cs with
  | first :: second :: more => some (first, Text.joinWith mark (second :: more))
  | _ => none

/-- A property that is named in braces, alone or with its value; with `!=` it is negated. -/
def propertyOf (cs : List Char) : NamedClass × Bool :=
  match cutAt? ['!', '='] cs, cutAt? [':'] cs, cutAt? ['='] cs with
  | some (p, v), _, _ => (.property ⟨p, some v⟩, true)
  | none, some (p, v), _ => (.property ⟨p, some v⟩, false)
  | none, none, some (p, v) => (.property ⟨p, some v⟩, false)
  | none, none, none => (.property ⟨cs, none⟩, false)

/-- The characters up to a closing brace. -/
def braced : (steps : Nat) → Reader (List Char)
  | 0 => failure
  | steps + 1 => do
    space
    let c ← next
    if c = '}' then return [] else return c :: (← braced steps)

/-! ### Escapes -/

/-- What a backslash and the characters after it stand for. -/
inductive Escape
  | literal (c : Char) (byte : Bool)
  | named (name : NamedClass) (negated : Bool)
  | look (l : WrittenLook)

/-- Characters that a backslash may stand before to no effect: ASCII without letters and digits
and without angle brackets. -/
def escapable (c : Char) : Bool :=
  c.toNat < 0x80 && !c.isAlphanum && c != '<' && c != '>'

/-- The edges of words that are named in braces. -/
def wordLooks : List (String × WrittenLook) :=
  [("start", .wordStart), ("end", .wordEnd), ("start-half", .wordStartHalf),
    ("end-half", .wordEndHalf)]

/-- An edge of a word, which may be named in braces. Braces that hold no name are left alone. -/
def wordEdge : Reader WrittenLook := do
  let before ← get
  if ← taken ['{'] then
    space
    match (← get).rest with
    | [] => failure
    | c :: _ =>
      if c.isAlpha || c == '-' then
        let name ← braced ((← get).rest.length + 1)
        match wordLooks.find? fun e => e.1.toList == name with
        | some e => return e.2
        | none => failure
      else
        -- what stands in braces is no name, so the braces are a repetition and are left to be read
        set before
        return .wordEdge
  else return .wordEdge

def escape : Reader Escape := do
  let c ← next
  match c with
  | 'x' =>
    space
    let braces := (← peek?) == some '{'
    return .literal (← codePoint 2) !braces
  | 'u' => return .literal (← codePoint 4) false
  | 'U' => return .literal (← codePoint 8) false
  | 'p' | 'P' =>
    space
    if ← taken ['{'] then
      let (name, negated) := propertyOf (← braced ((← get).rest.length + 1))
      return .named name (negated != (c == 'P'))
    else
      let letter ← next
      if letter = '\\' then failure
      return .named (.property ⟨[letter], none⟩) (c == 'P')
  | 'd' => return .named .decimal false
  | 'D' => return .named .decimal true
  | 's' => return .named .blank false
  | 'S' => return .named .blank true
  | 'w' => return .named .word false
  | 'W' => return .named .word true
  | 'a' => return .literal '\x07' false
  | 'f' => return .literal '\x0c' false
  | 't' => return .literal '\t' false
  | 'n' => return .literal '\n' false
  | 'r' => return .literal '\r' false
  | 'v' => return .literal '\x0b' false
  | 'A' => return .look .textStart
  | 'z' => return .look .textEnd
  | 'b' => return .look (← wordEdge)
  | 'B' => return .look .notWordEdge
  | '<' => return .look .wordStart
  | '>' => return .look .wordEnd
  | c => if escapable c then return .literal c false else failure

/-! ### Sets -/

/-- A named ASCII class, after its opening bracket. Nothing is taken if there is none. -/
def asciiClass? : Reader (Option ClassSet) := do
  let before ← get
  if ← taken [':'] then
    let negated ← taken ['^']
    let cs := (← get).rest
    let name := cs.takeWhile (· != ':')
    match Text.afterLead? [':', ']'] (cs.drop name.length),
        asciiClasses.find? fun e => e.1.toList == name with
    | some rest, some e =>
      modify ({ · with rest })
      return some (.named (.ascii e.2) negated)
    | _, _ =>
      set before
      return none
  else return none

def setItem : Reader Escape := do
  let c ← next
  if c = '\\' then escape else return .literal c false

def ofItem : Escape → Reader ClassSet
  | .literal c _ => return .range c.toNat c.toNat
  | .named n negated => return .named n negated
  | .look _ => failure

/-- One item of a set, or two with a dash between them. -/
def setRange : Reader ClassSet := do
  let first ← setItem
  space
  let s ← get
  let afterDash : Option Char :=
    let cs := s.rest.drop 1
    (if s.verbose then dropVerbose cs.length cs else cs).head?
  match s.rest with
  | [] => failure
  | c :: _ =>
    if c != '-' || afterDash == some ']' || afterDash == some '-' then ofItem first
    else
      let _ ← nextSpaced
      let last ← setItem
      match first, last with
      | .literal a _, .literal b _ =>
        if a.toNat ≤ b.toNat then return .range a.toNat b.toNat else failure
      | _, _ => failure

/-- An operation that waits for its right side. -/
inductive SetOp
  | intersection | difference | symmetric
  deriving DecidableEq

/-- Apply an operation that waits, if there is one, to what was read since. -/
def applyOp (pending : Option (SetOp × ClassSet)) (b : ClassSet) : ClassSet :=
  match pending with
  | none => b
  | some (.intersection, a) => .intersection a b
  | some (.difference, a) => .difference a b
  | some (.symmetric, a) => .symmetric a b

/-- Add an item to what was read since the last operation. -/
def addItem (read : Option ClassSet) (item : ClassSet) : ClassSet :=
  match read with
  | none => item
  | some a => .union a item

/-- Dashes right after the opening bracket, which stand for themselves. -/
def leadingDashes : (steps : Nat) → (read : Option ClassSet) → Reader (Option ClassSet)
  | 0, read => return read
  | steps + 1, read => do
    if ← taken ['-'] then
      space
      leadingDashes steps (some (addItem read (.range 0x2D 0x2D)))
    else return read

/-- The start of a set after its bracket: whether it is negated, and the dashes or the closing
bracket that stand for themselves there. -/
def setStart : Reader (Bool × Option ClassSet) := do
  space
  let negated ← taken ['^']
  space
  let read ← leadingDashes (← get).rest.length none
  if read.isNone && (← taken [']']) then
    space
    return (negated, some (.range 0x5D 0x5D))
  else return (negated, read)

mutual

/-- A set after its opening bracket. -/
def bracket : (steps : Nat) → Reader (Bool × ClassSet)
  | 0 => failure
  | steps + 1 => do
    let (negated, read) ← setStart
    return (negated, ← setItems steps none read)

/-- The items of a set up to its closing bracket. -/
def setItems : (steps : Nat) → (pending : Option (SetOp × ClassSet)) → (read : Option ClassSet) →
    Reader ClassSet
  | 0, _, _ => failure
  | steps + 1, pending, read => do
    space
    let operation (op : SetOp) : Reader ClassSet :=
      setItems steps (some (op, applyOp pending (read.getD .nothing))) none
    if ← taken [']'] then return applyOp pending (read.getD .nothing)
    else if ← taken ['['] then
      match ← asciiClass? with
      | some a => setItems steps pending (some (addItem read a))
      | none =>
        let (negated, a) ← bracket steps
        setItems steps pending (some (addItem read (.bracket negated a)))
    else if ← taken ['&', '&'] then operation .intersection
    else if ← taken ['-', '-'] then operation .difference
    else if ← taken ['~', '~'] then operation .symmetric
    else setItems steps pending (some (addItem read (← setRange)))

end

/-! ### Groups and flags -/

def flag? (c : Char) : Option Flag :=
  match c with
  | 'i' => some .caseInsensitive
  | 'm' => some .multiLine
  | 's' => some .dotAll
  | 'U' => some .swapGreed
  | 'u' => some .unicode
  | 'R' => some .crlf
  | 'x' => some .verbose
  | _ => none

/-- Flags up to a colon or a closing parenthesis, each at most once; those after a dash are
switched off, and at least one follows it. The result says also whether the colon was met. -/
def flags : (steps : Nat) → (negated dangling : Bool) → List (Flag × Bool) →
    Reader (List (Flag × Bool) × Bool)
  | 0, _, _, _ => failure
  | steps + 1, negated, dangling, found => do
    let c ← next
    if c = ':' ∨ c = ')' then
      if dangling then failure else return (found.reverse, c == ':')
    else
      -- white space may follow a flag, but may not stand before the first one
      space
      if c = '-' then
        if negated then failure else flags steps true true found
      else match flag? c with
        | some f =>
          if found.any fun e => e.1 == f then failure
          else flags steps negated false ((f, !negated) :: found)
        | none => failure

/-- Whether a character may stand in the name of a group. -/
def nameChar (first : Bool) (c : Char) : Bool :=
  if first then c == '_' || Text.isAlphabetic c
  else c == '_' || c == '.' || c == '[' || c == ']' || Text.isAlphabetic c || Text.isNumeric c

/-- The name of a group up to its angle bracket. Each name is given once. -/
def groupName : Reader Unit := do
  let cs := (← get).rest
  let name := cs.takeWhile (· != '>')
  let rest := cs.drop name.length
  let valid := match name with
    | [] => false
    | c :: cs => nameChar true c && cs.all (nameChar false)
  if rest.isEmpty || !valid || (← get).names.contains name then failure
  else modify fun s => { s with rest := rest.drop 1, names := name :: s.names }

inductive Opening
  | flags (changes : List (Flag × Bool))
  | group (captures : Bool) (changes : List (Flag × Bool))

/-- Whether the flags switch the passing over of white space. -/
def verboseAfter (before : Bool) (changes : List (Flag × Bool)) : Bool :=
  changes.foldl (fun v c => if c.1 = .verbose then c.2 else v) before

/-- What follows an opening parenthesis. Assertions about longer texts do not exist. -/
def opening : Reader Opening := do
  space
  for text in [['?', '='], ['?', '!'], ['?', '<', '='], ['?', '<', '!']] do
    if ← taken text then failure
  if ← taken ['?', 'P', '<'] then
    groupName
    return .group true []
  else if ← taken ['?', '<'] then
    groupName
    return .group true []
  else if ← taken ['?'] then
    let (changes, colon) ← flags ((← get).rest.length + 1) false false []
    if colon then return .group false changes
    else if changes.isEmpty then failure
    else return .flags changes
  else return .group true []

/-! ### Repetition -/

/-- Whether something can be repeated: not nothing, and not a switch of flags. -/
def repeatable : List Written → Bool
  | [] | .flags _ :: _ => false
  | _ => true

/-- Repeat what was read last. -/
def repeatLast (done : List Written) (least : Nat) (most : Option Nat) (greedy : Bool) :
    Reader (List Written) :=
  match done with
  | a :: rest => if repeatable done then return .repeated a least most greedy :: rest else failure
  | [] => failure

/-- A repetition by a sign; a question mark after it makes it prefer to stop. -/
def repeatBySign (done : List Written) (least : Nat) (most : Option Nat) :
    Reader (List Written) := do
  let lazily ← taken ['?']
  repeatLast done least most !lazily

/-- A repetition by numbers in braces, after the opening one. -/
def repeatByCount (done : List Written) : Reader (List Written) := do
  if !repeatable done then failure
  space
  let least ← decimal
  let range : Option (Nat × Option Nat) ←
    if ← taken [','] then
      space
      if (← peek?) == some '}' then pure (least.map fun n => (n, none))
      else do
        let most ← decimal
        pure (least.bind fun n => most.map fun m => (n, some m))
    else pure (least.map fun n => (n, some n))
  let closed ← taken ['}']
  match range with
  | some (n, most) =>
    if !closed || most.any (· < n) then failure
    space
    let lazily ← taken ['?']
    repeatLast done n most !lazily
  | none => failure

/-! ### Patterns -/

/-- Patterns that follow one another, the last one first. -/
def ofReversed (done : List Written) : Written :=
  match done.reverse with
  | [] => .empty
  | a :: rest => go a rest
where
  /-- A sequence that begins with `a`. -/
  go (a : Written) : List Written → Written
    | [] => a
    | b :: rest => .cat a (go b rest)

def ofEscape : Escape → Written
  | .literal c byte => .literal c byte
  | .named n negated => .named n negated
  | .look l => .look l

mutual

/-- A choice up to the end of its group. -/
def choice : (steps : Nat) → Reader Written
  | 0 => failure
  | steps + 1 => do
    let a ← items steps []
    if ← taken ['|'] then return .alt a (← choice steps) else return a

/-- A sequence up to a bar or the end of its group; what was read of it, the last one first. -/
def items : (steps : Nat) → (done : List Written) → Reader Written
  | 0, _ => failure
  | steps + 1, done => do
    space
    match ← peek? with
    | none | some '|' | some ')' => return ofReversed done
    | some _ =>
      let c ← next
      match c with
      | '(' =>
        match ← opening with
        | .flags changes =>
          modify fun s => { s with verbose := verboseAfter s.verbose changes }
          items steps (.flags changes :: done)
        | .group captures changes =>
          let outside := (← get).verbose
          modify fun s => { s with verbose := verboseAfter s.verbose changes }
          let a ← choice steps
          if ← taken [')'] then
            modify fun s => { s with verbose := outside }
            items steps (.group captures changes a :: done)
          else failure
      | '[' =>
        let (negated, set) ← bracket steps
        items steps (.bracket negated set :: done)
      | '?' => items steps (← repeatBySign done 0 (some 1))
      | '*' => items steps (← repeatBySign done 0 none)
      | '+' => items steps (← repeatBySign done 1 none)
      | '{' => items steps (← repeatByCount done)
      | '\\' => items steps (ofEscape (← escape) :: done)
      | '.' => items steps (.dot :: done)
      | '^' => items steps (.look .caret :: done)
      | '$' => items steps (.look .dollar :: done)
      | c => items steps (.literal c false :: done)

end

def whole (cs : List Char) : Option Written := do
  let (a, s) ← (choice (3 * cs.length + 3)).run { rest := cs }
  if s.rest.isEmpty then some a else none

end Reader

/-- Read a regular expression; none if it is not well-formed, nested too deep, means nothing or is
too large for the dialect. -/
def ofText? [Dialect] (text : String) (caseInsensitive : Bool) : Option Pattern := do
  let a ← Reader.whole text.toList
  if a.depth > maxDepth || !Dialect.fits caseInsensitive a then none
  else
    let (p, _) ← a.toPattern? { caseInsensitive }
    some p

/-! ### Escaped texts -/

/-- Characters that may stand for something else than themselves. -/
def metaChars : List Char :=
  ['\\', '.', '+', '*', '?', '(', ')', '|', '[', ']', '\x7b', '\x7d', '^', '$', '#', '&', '-', '~']

/-- An expression for a text as it stands: a backslash stands before each character that may stand
for something else. -/
def escaped (cs : List Char) : List Char :=
  cs.flatMap fun c => if c ∈ metaChars then ['\\', c] else [c]

end Prospectus.Pattern
