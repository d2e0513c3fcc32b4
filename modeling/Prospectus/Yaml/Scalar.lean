import Prospectus.Yaml.Cursor

/-!
# Scalars as they are written

Plain scalars, scalars in quotes, and block scalars. Line breaks inside a scalar are folded: one
break becomes a space, and of several all but the first are kept.
-/

namespace Prospectus.Yaml

inductive ScalarStyle
  | plain
  | quoted
  | block
  deriving DecidableEq

/-- What was met since the last character of a scalar that counts: spaces, the first line break,
and the breaks after it. -/
structure Pause where
  spaces : List Char := []
  first : List Char := []
  more : List Char := []
  broken : Bool := false

namespace Pause

/-- What a pause leaves in the scalar. -/
def folded (p : Pause) : List Char :=
  if p.broken then
    if p.first == ['\n'] then if p.more.isEmpty then [' '] else p.more
    else p.first ++ p.more
  else p.spaces

end Pause

namespace Scan

/-- Take the spaces and line breaks that come next. In a plain scalar no tabulator may stand
before column `indent` of a line. -/
def pause (indent : Option Nat) : (steps : Nat) → Pause → Scan Pause
  | 0, p => return p
  | steps + 1, p => do
    match ← peek? with
    | none => return p
    | some c =>
      if isSpace c then
        if p.broken && c == '\t' && indent.any ((← column) < ·) then failure
        let c ← take
        pause indent steps (if p.broken then p else { p with spaces := p.spaces ++ [c] })
      else if isBreak c then
        let b ← takeBreak
        pause indent steps (
          if p.broken then { p with more := p.more ++ b }
          else { p with spaces := [], first := b, broken := true })
      else return p

/-- The number of steps that suffice for what is left of the text. -/
def steps : Scan Nat := return (← get).rest.length + 1

/-! ### Plain scalars -/

/-- Take the characters of a plain scalar up to a gap or to an indicator. In a flow collection a
colon may not stand before an indicator. -/
def plainWord (flow : Bool) : (steps : Nat) → Scan (List Char)
  | 0 => return []
  | steps + 1 => do
    let next ← at? 1
    match ← peek? with
    | none => return []
    | some c =>
      if isGap c then return []
      else if flow && c == ':' && next.any (fun d => isFlowIndicator d || d == '?') then failure
      else if (c == ':' && endsWord next) || (flow && isFlowIndicator c) then return []
      else
        let c ← take
        return c :: (← plainWord flow steps)

/-- Take a plain scalar, whose lines after the first one start at column `indent` or later outside
flow collections. The result says also whether the scalar is followed by a line break. -/
def plainFrom (flow : Bool) (indent : Nat) : (steps : Nat) → (text : List Char) → Pause →
    Scan (List Char × Bool)
  | 0, text, p => return (text, p.broken)
  | n + 1, text, p => do
    if (← atAnyMarker) || (← peek?) == some '#' then return (text, p.broken)
    let word ← plainWord flow (← steps)
    let (text, p) := if word.isEmpty then (text, p) else (text ++ p.folded ++ word, {})
    match ← peek? with
    | none => return (text, p.broken)
    | some c =>
      if isGap c then
        let p ← pause (some indent) (← steps) p
        -- the scalar ends where a line is indented less, but for flow collections
        if !flow && (← column) < indent then return (text, p.broken)
        else plainFrom flow indent n text p
      else return (text, p.broken)

def plainScalar (flow : Bool) (indent : Nat) : Scan (List Char × Bool) := do
  plainFrom flow indent (← steps) [] {}

/-! ### Scalars in quotes -/

def hexValue? (c : Char) : Option Nat :=
  if c.isDigit then some (c.toNat - '0'.toNat)
  else if 'a' ≤ c ∧ c ≤ 'f' then some (c.toNat - 'a'.toNat + 10)
  else if 'A' ≤ c ∧ c ≤ 'F' then some (c.toNat - 'A'.toNat + 10)
  else none

/-- Take so many hexadecimal digits and give the character of their number. -/
def hexChar : (count : Nat) → (value : Nat) → Scan Char
  | 0, value => if h : value.isValidChar then return Char.ofNatAux value h else failure
  | count + 1, value => do
    match hexValue? (← take) with
    | some d => hexChar count (16 * value + d)
    | none => failure

def escape : Scan Char := do
  match ← take with
  | '0' => return '\x00'
  | 'a' => return '\x07'
  | 'b' => return '\x08'
  | 't' | '\t' => return '\t'
  | 'n' => return '\n'
  | 'v' => return '\x0b'
  | 'f' => return '\x0c'
  | 'r' => return '\r'
  | 'e' => return '\x1b'
  | ' ' => return ' '
  | '"' => return '"'
  | '/' => return '/'
  | '\\' => return '\\'
  | 'N' => return '\u0085'
  | '_' => return '\u00a0'
  | 'L' => return '\u2028'
  | 'P' => return '\u2029'
  | 'x' => hexChar 2 0
  | 'u' => hexChar 4 0
  | 'U' => hexChar 8 0
  | _ => failure

/-- Take the characters of a scalar in quotes up to a gap or to the closing quote. The result says
also whether an escaped line break ended it. -/
def quotedWord (single : Bool) : (steps : Nat) → Scan (List Char × Bool)
  | 0 => return ([], false)
  | steps + 1 => do
    let next ← at? 1
    match ← peek? with
    | none => return ([], false)
    | some c =>
      if isGap c then return ([], false)
      else if single && c == '\'' && next == some '\'' then
        drop 2
        let (cs, b) ← quotedWord single steps
        return ('\'' :: cs, b)
      else if c == (if single then '\'' else '"') then return ([], false)
      else if !single && c == '\\' then
        drop 1
        -- an escaped break joins two lines without a space
        if next.any isBreak then
          let _ ← takeBreak
          return ([], true)
        else
          let d ← escape
          let (cs, b) ← quotedWord single steps
          return (d :: cs, b)
      else
        let c ← take
        let (cs, b) ← quotedWord single steps
        return (c :: cs, b)

/-- Take a scalar after its opening quote. -/
def quotedFrom (single : Bool) : (steps : Nat) → (text : List Char) → Scan (List Char)
  | 0, _ => failure
  | n + 1, text => do
    if ← atAnyMarker then failure
    let (word, escapedBreak) ← quotedWord single (← steps)
    let text := text ++ word
    match ← peek? with
    | none => failure
    | some c =>
      if c == (if single then '\'' else '"') then
        drop 1
        return text
      let p ← pause none (← steps) { broken := escapedBreak }
      quotedFrom single n (text ++ p.folded)

def quotedScalar (single : Bool) : Scan (List Char) := do
  drop 1
  quotedFrom single (← steps) []

/-! ### Block scalars -/

/-- What happens to the line breaks at the end of a block scalar. -/
inductive Chomping
  | strip | clip | keep
  deriving DecidableEq

/-- Take a sign of chomping, if there is one. -/
def chomping? : Scan (Option Chomping) := do
  match ← peek? with
  | some '+' => drop 1; return some .keep
  | some '-' => drop 1; return some .strip
  | _ => return none

/-- Take a digit of indentation, which is not zero, if there is one. -/
def increment? : Scan (Option Nat) := do
  match ← peek? with
  | some c =>
    if c.isDigit then
      drop 1
      if c == '0' then failure else return some (c.toNat - '0'.toNat)
    else return none
  | none => return none

/-- Take the rest of a header line, which may hold a comment. -/
def headerEnd : Scan Unit := do
  let _ ← takeWhile isSpace
  if (← peek?) == some '#' then
    let _ ← takeWhile (!isBreak ·)
  if endsLine (← peek?) then
    let _ ← takeBreak
  else failure

/-- Take the empty lines that come next, and the indentation of the line after them: at most
`indent` spaces if that is known. The result has the breaks and the deepest column met. -/
def emptyLines (indent : Option Nat) : (steps : Nat) → (deepest : Nat) → Scan (List Char × Nat)
  | 0, deepest => return ([], deepest)
  | n + 1, deepest => do
    let s ← get
    -- spaces beyond a known indentation belong to the line
    let room := match indent with
      | none => s.rest.length
      | some i => i - s.column
    let run := (s.rest.take room).takeWhile (· == ' ')
    drop run.length
    let reached ← column
    let deepest := max deepest reached
    let inside := indent.all (reached < ·)
    match ← peek? with
    | none => return ([], deepest)
    | some c =>
      if inside && c == '\t' then failure
      else if isBreak c then
        let b ← takeBreak
        let (bs, deepest) ← emptyLines indent n deepest
        return (b ++ bs, deepest)
      else return ([], deepest)

/-- Take the lines of a block scalar at column `indent`. `first` is the break before them and
`more` the breaks after it; `blank` says whether the line before began with a space. -/
def blockLines (literal : Bool) (indent : Nat) : (steps : Nat) → (text first more : List Char) →
    (blank : Bool) → Scan (List Char × List Char × List Char)
  | 0, text, first, more, _ => return (text, first, more)
  | n + 1, text, first, more, blank => do
    match ← peek? with
    | none => return (text, first, more)
    | some c =>
      if (← column) != indent then return (text, first, more)
      let nowBlank := isSpace c
      let joined :=
        -- lines are folded together unless one of them begins with a space
        if !literal && first == ['\n'] && !blank && !nowBlank then
          if more.isEmpty then [' '] else []
        else first
      let line ← takeWhile (!isBreak ·)
      let break_ ← takeBreak
      let (breaks, _) ← emptyLines (some indent) (← steps) 0
      blockLines literal indent n (text ++ joined ++ more ++ line) break_ breaks nowBlank

/-- Take a block scalar. `parent` is the indentation around it. -/
def blockScalar (literal : Bool) (parent : Int) : Scan (List Char) := do
  drop 1
  let c ← chomping?
  let i ← increment?
  let c ← if c.isNone && i.isSome then chomping? else pure c
  headerEnd
  let known : Option Nat := i.map fun i => if parent ≥ 0 then parent.toNat + i else i
  let (breaks, deepest) ← emptyLines known (← steps) 0
  let indent := known.getD (max 1 (max deepest (parent + 1).toNat))
  let (text, first, more) ← blockLines literal indent (← steps) [] [] breaks false
  match c.getD .clip with
  | .strip => return text
  | .clip => return text ++ first
  | .keep => return text ++ first ++ more

end Scan

end Prospectus.Yaml
