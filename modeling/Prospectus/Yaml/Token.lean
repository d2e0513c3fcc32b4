import Prospectus.Yaml.Scalar

/-!
# Tokens of YAML text

`Token.scan` cuts a text into tokens. Indentation opens and closes blocks, and a key is known as
one only at the colon after it, so the scanner remembers where a key may have begun and puts the
tokens of the key there once the colon is met.
-/

namespace Prospectus.Yaml

/-- A token. -/
inductive Token
  | version (major minor : Nat)
  | tagShorthand (handle start : List Char)
  | documentStart
  | documentEnd
  | streamEnd
  | blockSequenceStart
  | blockMappingStart
  | blockEnd
  | flowSequenceStart
  | flowSequenceEnd
  | flowMappingStart
  | flowMappingEnd
  | blockEntry
  | flowEntry
  | key
  | value
  | alias (name : List Char)
  | anchor (name : List Char)
  | tag (handle suffix : List Char)
  | scalar (text : List Char) (style : ScalarStyle)
  deriving DecidableEq

namespace Scan

/-! ### Names, tags and directives -/

/-- Take the name of an anchor or alias after its sign. -/
def anchorName : Scan (List Char) := do
  drop 1
  let name ← takeWhile isNameChar
  let ended := match ← peek? with
    | none => true
    | some c => isGap c || c == '?' || c == ':' || c == ',' || c == ']' || c == '}' || c == '%' ||
        c == '@' || c == '`'
  if name.isEmpty || !ended then failure else return name

/-- Take a byte that is written by a percent sign and two hexadecimal digits. -/
def escapedByte : Scan Nat := do
  if (← take) != '%' then failure
  match hexValue? (← take) with
  | some high =>
    match hexValue? (← take) with
    | some low => return 16 * high + low
    | none => failure
  | none => failure

/-- Take so many further bytes of a character. -/
def furtherBytes : (count : Nat) → (value : Nat) → Scan Char
  | 0, value => if h : value.isValidChar then return Char.ofNatAux value h else failure
  | count + 1, value => do
    let b ← escapedByte
    if b / 64 == 2 then furtherBytes count (64 * value + b % 64) else failure

/-- Take a character whose UTF-8 bytes are escaped. -/
def escapedChar : Scan Char := do
  let b ← escapedByte
  if b < 0x80 then furtherBytes 0 b
  else if b / 32 == 6 then furtherBytes 1 (b % 32)
  else if b / 16 == 14 then furtherBytes 2 (b % 16)
  else if b / 8 == 30 then furtherBytes 3 (b % 8)
  else failure

/-- Characters of tags. Inside angle brackets a tag may hold a few more. -/
def isTagChar (verbatim : Bool) (c : Char) : Bool :=
  isNameChar c || [';', '/', '?', ':', '@', '&', '=', '+', '$', '.', '!', '~', '*', '\'', '(',
    ')'].contains c || (verbatim && (c == ',' || c == '[' || c == ']'))

/-- Take the characters of a tag. -/
def tagChars (verbatim : Bool) : (steps : Nat) → Scan (List Char)
  | 0 => return []
  | steps + 1 => do
    match ← peek? with
    | none => return []
    | some c =>
      if c == '%' then
        let d ← escapedChar
        return d :: (← tagChars verbatim steps)
      else if isTagChar verbatim c then
        let d ← take
        return d :: (← tagChars verbatim steps)
      else return []

/-- Take the text of a tag, which may not be empty. -/
def tagText (verbatim : Bool) : Scan (List Char) := do
  let cs ← tagChars verbatim (← steps)
  if cs.isEmpty then failure else return cs

/-- Take what may be a handle: an exclamation mark, name characters, and a second mark. -/
def tagHandle : Scan (List Char) := do
  if (← take) != '!' then failure
  let name ← takeWhile isNameChar
  if (← peek?) == some '!' then
    drop 1
    return '!' :: (name ++ ['!'])
  else return '!' :: name

/-- Take a tag, as a handle and a suffix. -/
def tagToken : Scan Token := do
  let token ←
    if (← at? 1) == some '<' then
      drop 2
      let suffix ← tagText true
      if (← take) == '>' then pure (Token.tag [] suffix) else failure
    else
      let handle ← tagHandle
      if handle.length > 1 && handle.getLast? == some '!' then
        let suffix ← tagText false
        pure (Token.tag handle suffix)
      else
        let suffix := handle.drop 1 ++ (← tagChars false (← steps))
        pure (if suffix.isEmpty then Token.tag [] ['!'] else Token.tag ['!'] suffix)
  return token

/-- Take a number of at most nine digits. -/
def versionNumber : Scan Nat := do
  let ds ← takeWhile Char.isDigit
  if ds.isEmpty || ds.length > 9 then failure
  else return ds.foldl (fun n c => 10 * n + (c.toNat - '0'.toNat)) 0

/-- Take a directive up to the end of its line. -/
def directive : Scan Token := do
  drop 1
  let name ← takeWhile isNameChar
  if name.isEmpty || !endsWord (← peek?) then failure
  let _ ← takeWhile isSpace
  let token ←
    if name == ['Y', 'A', 'M', 'L'] then
      let major ← versionNumber
      if (← take) != '.' then failure
      pure (Token.version major (← versionNumber))
    else if name == ['T', 'A', 'G'] then
      let handle ← tagHandle
      if handle.length > 1 && handle.getLast? != some '!' then failure
      if !(← peek?).any isSpace then failure
      let _ ← takeWhile isSpace
      let start ← tagText true
      if !endsWord (← peek?) then failure
      pure (Token.tagShorthand handle start)
    else failure
  headerEnd
  return token

end Scan

namespace Token

/-! ### The scanner -/

/-- A place where a key may have begun: how many tokens come before it, and where it stands. -/
structure PossibleKey where
  tokens : Nat
  index : Nat
  line : Nat
  column : Nat
  /-- The block around it can go on with nothing else. -/
  required : Bool

/-- The state between two tokens. -/
structure Scanner where
  cursor : Cursor
  /-- The tokens so far, the last one first. -/
  tokens : List Token := []
  /-- The column of the innermost block, and of those around it. -/
  indent : Int := -1
  outer : List Int := []
  keyAllowed : Bool := true
  /-- The possible key of the innermost flow collection, and of what is around it. -/
  key : Option PossibleKey := none
  outerKeys : List (Option PossibleKey) := []

namespace Scanner

/-- Inside a flow collection. -/
def inFlow (s : Scanner) : Bool := !s.outerKeys.isEmpty

end Scanner

/-- A step of the scanner. -/
abbrev Step := StateT Scanner Option

namespace Step

def read {α : Type} (r : Scan α) : Step α := do
  let s ← get
  let (x, cursor) ← r.run s.cursor
  set { s with cursor }
  return x

def emit (t : Token) : Step Unit := modify fun s => { s with tokens := t :: s.tokens }

/-- Insert tokens where so many tokens come before. -/
def insertAt (count : Nat) (ts : List Token) : Step Unit :=
  modify fun s =>
    let after := s.tokens.length - count
    { s with tokens := s.tokens.take after ++ ts.reverse ++ s.tokens.drop after }

/-- Say whether a key may begin at the next token. -/
def allowKey (allowed : Bool) : Step Unit := modify ({ · with keyAllowed := allowed })

/-- Close the blocks that are deeper than a column. -/
def unroll (column : Int) : Step Unit :=
  modify fun s =>
    if s.inFlow then s
    else
      let rec go (indent : Int) (tokens : List Token) : List Int → Scanner
        | [] => { s with indent, outer := [], tokens }
        | i :: outer =>
          if indent > column then go i (.blockEnd :: tokens) outer
          else { s with indent, outer := i :: outer, tokens }
      go s.indent s.tokens s.outer

/-- Open a block at a column if it is deeper than the innermost one; the block begins where so many
tokens come before. -/
def roll (column count : Nat) (t : Token) : Step Unit := do
  let s ← get
  if !s.inFlow && s.indent < column then
    set { s with indent := column, outer := s.indent :: s.outer }
    insertAt count [t]

def rollHere (t : Token) : Step Unit := do
  let s ← get
  roll s.cursor.column s.tokens.length t

/-- Forget the possible key. A required one has to become a key. -/
def dropKey : Step Unit := do
  let s ← get
  if s.key.any (·.required) then failure
  set { s with key := none }

def saveKey : Step Unit := do
  let s ← get
  if s.keyAllowed then
    dropKey
    modify fun t => { t with key := some {
      tokens := s.tokens.length
      index := s.cursor.index
      line := s.cursor.line
      column := s.cursor.column
      required := !s.inFlow && s.indent == s.cursor.column } }

/-- Whether a possible key is too far back: on another line or more than 1024 characters ago. -/
def isStale (c : Cursor) (k : PossibleKey) : Bool := k.line < c.line || k.index + 1024 < c.index

def dropStale : Step Unit := do
  let s ← get
  let stale (k : Option PossibleKey) : Bool := k.any (isStale s.cursor)
  if (s.key :: s.outerKeys).any fun k => stale k && k.any (·.required) then failure
  let fresh (k : Option PossibleKey) : Option PossibleKey := if stale k then none else k
  set { s with key := fresh s.key, outerKeys := s.outerKeys.map fresh }

/-- Pass over spaces, comments and line breaks. In a block no tabulator may stand where a key may
begin. -/
def toNext : (steps : Nat) → Step Unit
  | 0 => return
  | steps + 1 => do
    let s ← get
    if s.cursor.column == 0 && s.cursor.rest.head? == some '\uFEFF' then read (Scan.drop 1)
    let tabs := s.inFlow || !s.keyAllowed
    let _ ← read (Scan.takeWhile fun c => c == ' ' || (tabs && c == '\t'))
    if (← read Scan.peek?) == some '#' then
      let _ ← read (Scan.takeWhile (!isBreak ·))
    if (← read Scan.peek?).any isBreak then
      let _ ← read Scan.takeBreak
      if !s.inFlow then allowKey true
      toNext steps

def openFlow (t : Token) : Step Unit := do
  saveKey
  modify fun s => { s with key := none, outerKeys := s.key :: s.outerKeys }
  allowKey true
  read (Scan.drop 1)
  emit t

def closeFlow (t : Token) : Step Unit := do
  dropKey
  modify fun s =>
    match s.outerKeys with
    | [] => s
    | k :: ks => { s with key := k, outerKeys := ks }
  allowKey false
  read (Scan.drop 1)
  emit t

def flowComma : Step Unit := do
  dropKey
  allowKey true
  read (Scan.drop 1)
  emit .flowEntry

def blockDash : Step Unit := do
  let s ← get
  if !s.inFlow then
    if !s.keyAllowed then failure
    rollHere .blockSequenceStart
  dropKey
  allowKey true
  read (Scan.drop 1)
  emit .blockEntry

def questionMark : Step Unit := do
  let s ← get
  if !s.inFlow then
    if !s.keyAllowed then failure
    rollHere .blockMappingStart
  dropKey
  allowKey !s.inFlow
  read (Scan.drop 1)
  emit .key

/-- The colon of a value. A possible key becomes a key. -/
def colon : Step Unit := do
  let s ← get
  match s.key with
  | some k =>
    -- only the colon tells that a key stood there, so its tokens are put in where it began
    insertAt k.tokens [.key]
    roll k.column k.tokens .blockMappingStart
    modify ({ · with key := none })
    allowKey false
  | none =>
    if !s.inFlow then
      if !s.keyAllowed then failure
      rollHere .blockMappingStart
    allowKey !s.inFlow
  read (Scan.drop 1)
  emit .value

/-- A token after which no key begins but which may begin one. -/
def inKey (r : Scan Token) : Step Unit := do
  saveKey
  allowKey false
  emit (← read r)

/-- A tag, which ends at a gap, or in a flow collection at a comma. -/
def tag : Step Unit := do
  inKey Scan.tagToken
  let next ← read Scan.peek?
  if !endsWord next && !((← get).inFlow && next == some ',') then failure

def block (literal : Bool) : Step Unit := do
  dropKey
  allowKey true
  let text ← read (Scan.blockScalar literal (← get).indent)
  emit (.scalar text .block)

def plain : Step Unit := do
  saveKey
  allowKey false
  let s ← get
  let (text, broken) ← read (Scan.plainScalar s.inFlow (s.indent + 1).toNat)
  if broken then allowKey true
  emit (.scalar text .plain)

/-- What stands at the start of a line outside all blocks. -/
def atMargin (r : Step Unit) : Step Unit := do
  unroll (-1)
  dropKey
  allowKey false
  r

/-- Whether a plain scalar may begin with a character. -/
def beginsPlain (inFlow : Bool) (c : Char) (next : Option Char) : Bool :=
  if c == '-' then !next.any isSpace
  else if c == '?' || c == ':' then !inFlow && !endsWord next
  else !(isGap c || isFlowIndicator c ||
    ['#', '&', '*', '!', '|', '>', '\'', '"', '%', '@', '`'].contains c)

/-- Take the next token. The result says whether the text goes on. -/
def next : Step Bool := do
  toNext (← get).cursor.rest.length.succ
  dropStale
  unroll (← get).cursor.column
  let s ← get
  match s.cursor.rest with
  | [] =>
    atMargin (emit .streamEnd)
    return false
  | c :: _ =>
    -- some signs only count if a gap follows them or in a flow collection
    let after := s.cursor.rest[1]?
    if s.cursor.column == 0 && c == '%' then
      atMargin do emit (← read Scan.directive)
    else if ← read (Scan.atMarker '-') then
      atMargin do
        read (Scan.drop 3)
        emit .documentStart
    else if ← read (Scan.atMarker '.') then
      atMargin do
        read (Scan.drop 3)
        emit .documentEnd
    else if c == '[' then openFlow .flowSequenceStart
    else if c == '{' then openFlow .flowMappingStart
    else if c == ']' then closeFlow .flowSequenceEnd
    else if c == '}' then closeFlow .flowMappingEnd
    else if c == ',' then flowComma
    else if c == '-' && endsWord after then blockDash
    else if c == '?' && (s.inFlow || endsWord after) then questionMark
    else if c == ':' && (s.inFlow || endsWord after) then colon
    else if c == '*' then inKey do return .alias (← Scan.anchorName)
    else if c == '&' then inKey do return .anchor (← Scan.anchorName)
    else if c == '!' then tag
    else if c == '|' && !s.inFlow then block true
    else if c == '>' && !s.inFlow then block false
    else if c == '\'' then inKey do return .scalar (← Scan.quotedScalar true) .quoted
    else if c == '"' then inKey do return .scalar (← Scan.quotedScalar false) .quoted
    else if beginsPlain s.inFlow c after then plain
    else failure
    return true

def all : (steps : Nat) → Step Unit
  | 0 => failure
  | steps + 1 => do
    if ← next then all steps

end Step

/-- The tokens of a text; none if the text holds characters that it may not hold or breaks off
inside a token. Every step takes a character, the last one the end. -/
def scan (cs : List Char) : Option (List Token) := do
  if !cs.all isAllowed then failure
  let (_, s) ← (Step.all (cs.length + 1)).run { cursor := .start cs }
  return s.tokens.reverse

end Token

end Prospectus.Yaml
