import Prospectus.Numeral.Literal

/-!
# Tokens of JSON text

`Token.scan` cuts a text into tokens, one character after the other. A reader may look at a token
or pass over it, and a fault need not show in both: a text with a surrogate that has no partner
cannot be read, but it can be passed over, and so can a number that is too large. After a fault
that cannot be passed over there are no further tokens.
-/

namespace Prospectus.Json

/-- Why a text cannot be read: it ended early, or a character does not belong where it stands. -/
inductive Fault
  | ended
  | malformed
  deriving DecidableEq

/-- A token, or the fault that stands in its place. -/
inductive Token
  | openObject | closeObject | openArray | closeArray | comma | colon
  | null
  | bool (b : Bool)
  | num (n : Number)
  | str (s : String)
  /-- A number beyond the range of doubles. -/
  | tooLarge
  /-- A text with a surrogate that has no partner. -/
  | unpaired
  /-- A text that breaks off, with the fault of a reader that wants the text and the fault of one
  that passes over it. -/
  | brokenText (read skip : Fault)
  /-- Any other broken token, with the two faults. -/
  | broken (read skip : Fault)
  deriving DecidableEq

namespace Token

/-! ### The state between two characters -/

/-- How much of a number literal has been seen. -/
inductive NumberStage
  | sign | zero | whole | point | fraction | exponent | exponentSign | exponentDigits
  deriving DecidableEq

/-- Where inside a quoted text the next character stands. After `\u` the bytes of the next four
are counted; `value` is none once one of them is no hexadecimal digit. -/
inductive TextStage
  | plain
  | escape
  | hex (bytes : Nat) (value : Option Nat)
  deriving DecidableEq

/-- A quoted text up to here: its characters, the last one first; whether a surrogate without a
partner was seen; and the leading surrogate that waits for its partner. -/
structure OpenText where
  chars : List Char
  unpaired : Bool
  leading : Option Nat
  deriving DecidableEq

/-- The state between two characters. -/
inductive State
  | between
  | word (rest : List Char) (token : Token)
  | number (literal : Literal) (stage : NumberStage)
  | text (open_ : OpenText) (stage : TextStage)
  | stopped
  deriving DecidableEq

/-! ### Numbers -/

/-- The token of a complete literal, whose digits are listed the last one first. -/
def ofLiteral (l : Literal) : Token :=
  let l : Literal :=
    { l with
      whole := l.whole.reverse
      fraction := l.fraction.map List.reverse
      exponent := l.exponent.map fun e => (e.1, e.2.reverse) }
  match l.number? with
  | some n => .num n
  | none => .tooLarge

def digit? (c : Char) : Option Nat :=
  if '0' ≤ c ∧ c ≤ '9' then some (c.toNat - '0'.toNat) else none

/-- One more character of a number literal. The result is none if the literal ended before it. -/
def numberStep (l : Literal) (stage : NumberStage) (c : Char) :
    Option (Except Unit (Literal × NumberStage)) :=
  let withWhole (d : Nat) : Literal := { l with whole := d :: l.whole }
  let withFraction (d : Nat) : Literal := { l with fraction := some (d :: l.fraction.getD []) }
  let withExponent (d : Nat) : Literal :=
    { l with exponent := l.exponent.map fun e => (e.1, d :: e.2) }
  let withSign (negative : Bool) : Literal := { l with exponent := some (negative, []) }
  match stage with
  | .sign =>
    match digit? c with
    | some 0 => some (.ok (withWhole 0, .zero))
    | some d => some (.ok (withWhole d, .whole))
    | none => some (.error ())
  | .zero =>
    if c = '.' then some (.ok (l, .point))
    else if c = 'e' ∨ c = 'E' then some (.ok (l, .exponent))
    -- no digit may follow a leading zero
    else if (digit? c).isSome then some (.error ())
    else none
  | .whole =>
    if c = '.' then some (.ok (l, .point))
    else if c = 'e' ∨ c = 'E' then some (.ok (l, .exponent))
    else (digit? c).map fun d => .ok (withWhole d, .whole)
  | .point =>
    match digit? c with
    | some d => some (.ok (withFraction d, .fraction))
    | none => some (.error ())
  | .fraction =>
    if c = 'e' ∨ c = 'E' then some (.ok (l, .exponent))
    else (digit? c).map fun d => .ok (withFraction d, .fraction)
  | .exponent =>
    if c = '+' then some (.ok (withSign false, .exponentSign))
    else if c = '-' then some (.ok (withSign true, .exponentSign))
    else match digit? c with
      | some d => some (.ok ({ l with exponent := some (false, [d]) }, .exponentDigits))
      | none => some (.error ())
  | .exponentSign =>
    match digit? c with
    | some d => some (.ok (withExponent d, .exponentDigits))
    | none => some (.error ())
  | .exponentDigits => (digit? c).map fun d => .ok (withExponent d, .exponentDigits)

/-- Whether a literal may end at this stage. -/
def NumberStage.complete : NumberStage → Bool
  | .zero | .whole | .fraction | .exponentDigits => true
  | .sign | .point | .exponent | .exponentSign => false

/-! ### Quoted texts -/

/-- The token of a quoted text whose closing quote was met. -/
def OpenText.close (t : OpenText) : Token :=
  if t.unpaired || t.leading.isSome then .unpaired else .str (String.ofList t.chars.reverse)

/-- Give up waiting for the partner of a leading surrogate. -/
def OpenText.giveUp (t : OpenText) : OpenText :=
  { t with unpaired := t.unpaired || t.leading.isSome, leading := none }

def OpenText.push (t : OpenText) (c : Char) : OpenText := { t with chars := c :: t.chars }

/-- Append a UTF-16 unit that was written as an escape. -/
def OpenText.pushUnit (t : OpenText) (unit : Nat) : OpenText :=
  let isLeading := 0xD800 ≤ unit ∧ unit ≤ 0xDBFF
  let isTrailing := 0xDC00 ≤ unit ∧ unit ≤ 0xDFFF
  match t.leading with
  | some high =>
    if isTrailing then
      { t with leading := none }.push
        (Char.ofNat (0x10000 + (high - 0xD800) * 0x400 + (unit - 0xDC00)))
    else t.giveUp
  | none =>
    if isTrailing then { t with unpaired := true }
    else if isLeading then { t with leading := some unit }
    else t.push (Char.ofNat unit)

def hexValue? (c : Char) : Option Nat :=
  if '0' ≤ c ∧ c ≤ '9' then some (c.toNat - '0'.toNat)
  else if 'a' ≤ c ∧ c ≤ 'f' then some (c.toNat - 'a'.toNat + 10)
  else if 'A' ≤ c ∧ c ≤ 'F' then some (c.toNat - 'A'.toNat + 10)
  else none

/-- The character that a letter stands for after a backslash. -/
def simpleEscape? (c : Char) : Option Char :=
  if c = '"' ∨ c = '\\' ∨ c = '/' then some c
  else if c = 'b' then some '\x08'
  else if c = 'f' then some '\x0c'
  else if c = 'n' then some '\n'
  else if c = 'r' then some '\r'
  else if c = 't' then some '\t'
  else none

/-- A quoted text that goes on with a character that it cannot hold. -/
def brokenHere : List Token × State := ([.brokenText .malformed .malformed], .stopped)

/-- One more character of a quoted text. -/
def textStep (t : OpenText) (stage : TextStage) (c : Char) : List Token × State :=
  match stage with
  | .plain =>
    if c = '\\' then ([], .text t .escape)
    else if c = '"' then ([t.close], .between)
    else if c.toNat < 0x20 then brokenHere
    else ([], .text (t.giveUp.push c) .plain)
  | .escape =>
    if c = 'u' then ([], .text t (.hex 0 (some 0)))
    else match simpleEscape? c with
      | some d => ([], .text (t.giveUp.push d) .plain)
      | none => brokenHere
  | .hex bytes value =>
    -- a character beyond ASCII takes up the place of several digits
    let bytes := bytes + c.utf8Size
    let value := value.bind fun v => (hexValue? c).map fun d => 16 * v + d
    if bytes < 4 then ([], .text t (.hex bytes value))
    else match value with
      | some unit => ([], .text (t.pushUnit unit) .plain)
      | none => brokenHere

/-! ### One character -/

/-- A character that starts a token or stands between two. -/
def startStep (c : Char) : List Token × State :=
  if c = ' ' ∨ c = '\n' ∨ c = '\t' ∨ c = '\r' then ([], .between)
  else if c = '{' then ([.openObject], .between)
  else if c = '}' then ([.closeObject], .between)
  else if c = '[' then ([.openArray], .between)
  else if c = ']' then ([.closeArray], .between)
  else if c = ',' then ([.comma], .between)
  else if c = ':' then ([.colon], .between)
  else if c = '"' then ([], .text ⟨[], false, none⟩ .plain)
  else if c = 'n' then ([], .word ['u', 'l', 'l'] .null)
  else if c = 't' then ([], .word ['r', 'u', 'e'] (.bool true))
  else if c = 'f' then ([], .word ['a', 'l', 's', 'e'] (.bool false))
  else if c = '-' then ([], .number ⟨true, [], none, none⟩ .sign)
  else match digit? c with
    | some 0 => ([], .number ⟨false, [0], none, none⟩ .zero)
    | some d => ([], .number ⟨false, [d], none, none⟩ .whole)
    | none => ([.broken .malformed .malformed], .stopped)

/-- The tokens that a character completes, and the state after it. -/
def step (state : State) (c : Char) : List Token × State :=
  match state with
  | .between => startStep c
  -- the word or number is complete, and `c` begins something else
  | .word [] token => (token :: (startStep c).1, (startStep c).2)
  | .word [w] token =>
    if c = w then ([token], .between) else ([.broken .malformed .malformed], .stopped)
  | .word (w :: ws) token =>
    if c = w then ([], .word ws token) else ([.broken .malformed .malformed], .stopped)
  | .number l stage =>
    match numberStep l stage c with
    | some (.ok (l, stage)) => ([], .number l stage)
    | some (.error ()) => ([.broken .malformed .malformed], .stopped)
    | none => (ofLiteral l :: (startStep c).1, (startStep c).2)
  | .text t stage => textStep t stage c
  | .stopped => ([], .stopped)

/-- The tokens that the end of the text completes. A number that breaks off has ended early for a
reader, but is malformed for one that passes over it. -/
def finish : State → List Token
  | .between | .stopped => []
  | .word [] token => [token]
  | .word (_ :: _) _ => [.broken .ended .ended]
  | .number l stage => if stage.complete then [ofLiteral l] else [.broken .ended .malformed]
  | .text t _ => [.brokenText (if t.unpaired then .malformed else .ended) .ended]

/-- The tokens of a text that goes on from a state. -/
def scanFrom (state : State) : List Char → List Token
  | [] => finish state
  | c :: cs => (step state c).1 ++ scanFrom (step state c).2 cs

def scan (cs : List Char) : List Token := scanFrom .between cs

end Token

end Prospectus.Json
