/-!
# A place in a YAML text

A cursor holds what is left of a text and how far it has come. The readers here take the parts
that every token is made of: characters, runs of characters, and line breaks.
-/

namespace Prospectus.Yaml

/-- A place in a text: what follows it, the number of characters before it, its line, and its
column. -/
structure Cursor where
  rest : List Char
  index : Nat
  line : Nat
  column : Nat

namespace Cursor

def start (cs : List Char) : Cursor := ⟨cs, 0, 0, 0⟩

end Cursor

/-! ### Classes of characters -/

/-- Characters that a YAML text may hold. -/
def isAllowed (c : Char) : Bool :=
  let n := c.toNat
  n == 0x09 || n == 0x0A || n == 0x0D || (0x20 ≤ n && n ≤ 0x7E) || n == 0x85 ||
    (0xA0 ≤ n && n ≤ 0xD7FF) || (0xE000 ≤ n && n ≤ 0xFFFD) || 0x10000 ≤ n

/-- Characters that end a line. -/
def isBreak (c : Char) : Bool :=
  c == '\n' || c == '\r' || c == '\u0085' || c == '\u2028' || c == '\u2029'

def isSpace (c : Char) : Bool := c == ' ' || c == '\t'

/-- Characters that end a word. -/
def isGap (c : Char) : Bool := isSpace c || isBreak c

/-- Whether a line ends here: at a break or at the end of the text. -/
def endsLine : Option Char → Bool
  | none => true
  | some c => isBreak c

/-- Whether a word ends here: at a gap or at the end of the text. -/
def endsWord : Option Char → Bool
  | none => true
  | some c => isGap c

/-- Characters of names. -/
def isNameChar (c : Char) : Bool := c.isAlphanum || c == '_' || c == '-'

/-- The indicators of flow collections. -/
def isFlowIndicator (c : Char) : Bool :=
  c == ',' || c == '[' || c == ']' || c == '{' || c == '}'

/-! ### Readers -/

/-- A reader of a part of a text. -/
abbrev Scan := StateT Cursor Option

namespace Scan

/-- The character at a distance. -/
def at? (k : Nat) : Scan (Option Char) := return (← get).rest[k]?

def peek? : Scan (Option Char) := return (← get).rest.head?

def column : Scan Nat := return (← get).column

/-- Take a character that is no line break. -/
def take : Scan Char := do
  let s ← get
  match s.rest with
  | [] => failure
  | c :: cs =>
    set { s with rest := cs, index := s.index + 1, column := s.column + 1 }
    return c

/-- Take `n` characters that are no line breaks. -/
def drop (n : Nat) : Scan Unit :=
  modify fun s =>
    { s with rest := s.rest.drop n, index := s.index + n, column := s.column + n }

/-- Take a line break and give what a scalar keeps of it: a line feed, or the separator of lines
or paragraphs itself. Nothing is taken where there is no break. -/
def takeBreak : Scan (List Char) := do
  let s ← get
  let next (n : Nat) (cs : List Char) : Cursor :=
    { s with rest := cs, index := s.index + n, line := s.line + 1, column := 0 }
  match s.rest with
  -- the two characters are one break and one line
  | '\r' :: '\n' :: cs =>
    set (next 2 cs)
    return ['\n']
  | c :: cs =>
    if c == '\u2028' || c == '\u2029' then
      set (next 1 cs)
      return [c]
    else if isBreak c then
      set (next 1 cs)
      return ['\n']
    else return []
  | [] => return []

/-- Take the longest run of characters with a property, none of which may be a line break. -/
def takeWhile (p : Char → Bool) : Scan (List Char) := do
  let run := (← get).rest.takeWhile p
  drop run.length
  return run

/-- Whether `---` or `...` stands here at the start of a line. -/
def atMarker (mark : Char) : Scan Bool := do
  let s ← get
  return s.column == 0 && s.rest.take 3 == [mark, mark, mark] && endsWord s.rest[3]?

/-- Whether either marker stands here. -/
def atAnyMarker : Scan Bool := return (← atMarker '-') || (← atMarker '.')

end Scan

end Prospectus.Yaml
