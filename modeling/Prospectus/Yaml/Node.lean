import Prospectus.Json.Normal
import Prospectus.Yaml.Event
import Prospectus.Numeral.Literal

/-!
# Nodes of a YAML document

The tree of a document: plain scalars are resolved to null, truth values, numbers and texts,
aliases are replaced by what they name, and no mapping has a key twice. `Node.toJson?` gives the
tree as JSON.
-/

namespace Prospectus.Yaml

/-- A number with a point or an exponent. -/
inductive FloatValue
  | finite (x : Binary64)
  | infinite
  | negativeInfinite
  | notANumber
  deriving DecidableEq

inductive Node
  | null
  | bool (b : Bool)
  | int (n : Int)
  | float (x : FloatValue)
  | str (s : String)
  | seq (items : List Node)
  | map (pairs : List (Node × Node))
  /-- A node with a tag that begins with an exclamation mark. -/
  | tagged (tag : String) (node : Node)
  deriving Inhabited

/-! ### Plain scalars -/

namespace Plain

/-- The value of digits in a base; none without digits or with a digit beyond the base. -/
def digitsValue? (base : Nat) (cs : List Char) : Option Nat :=
  if cs.isEmpty then none
  else cs.foldlM (fun n c =>
    match Scan.hexValue? c with
    | some d => if d < base then some (base * n + d) else none
    | none => none) 0

def unsigned : List Char → List Char
  | '-' :: cs | '+' :: cs => cs
  | cs => cs

/-- Whether the scalar is digits with a leading zero, which is a text. -/
def isPaddedDigits (cs : List Char) : Bool :=
  match unsigned cs with
  | '0' :: d :: ds => (d :: ds).all Char.isDigit
  | _ => false

/-- The base that is named at the start of a number, and the digits after it. -/
def based? : List Char → Option (Nat × List Char)
  | '0' :: 'x' :: cs => some (16, cs)
  | '0' :: 'o' :: cs => some (8, cs)
  | '0' :: 'b' :: cs => some (2, cs)
  | _ => none

/-- The integer that a scalar writes: decimal, or in the base sixteen, eight or two. -/
def integer? (cs : List Char) : Option Int :=
  let magnitude? (cs : List Char) : Option Nat :=
    match based? cs with
    | some (base, ds) => digitsValue? base ds
    | none => if isPaddedDigits cs then none else digitsValue? 10 cs
  match cs with
  | '-' :: cs => (magnitude? cs).map fun n => -(n : Int)
  | '+' :: cs => (magnitude? cs).map fun n => (n : Int)
  | cs => (magnitude? cs).map fun n => (n : Int)

/-- The digits before the point, those after it, and the exponent of a decimal number. -/
def decimalParts? (cs : List Char) : Option (List Char × List Char × Int) := do
  let whole := cs.takeWhile Char.isDigit
  let rest := cs.drop whole.length
  let (fraction, rest) := match rest with
    | '.' :: rest =>
      let fraction := rest.takeWhile Char.isDigit
      (fraction, rest.drop fraction.length)
    | rest => ([], rest)
  if whole.isEmpty && fraction.isEmpty then none
  match rest with
  | [] => some (whole, fraction, 0)
  | e :: rest =>
    if e != 'e' && e != 'E' then none
    let n ← digitsValue? 10 (unsigned rest)
    if !(unsigned rest).all Char.isDigit then none
    some (whole, fraction, if rest.head? == some '-' then -(n : Int) else (n : Int))

/-- The double nearest to a decimal number; none if it is too large. Numbers whose leading digit
is far beyond the range of doubles are not worked out. -/
def decimal? (negative : Bool) (cs : List Char) : Option Binary64 := do
  let (whole, fraction, e) ← decimalParts? cs
  let n := Literal.valueOf ((whole ++ fraction).map fun c => c.toNat - '0'.toNat)
  let e := e - fraction.length
  if n == 0 then return .zero negative
  let place : Int := n.repr.length + e
  if place > 400 then none
  else if place < -400 then return .zero negative
  else if e ≥ 0 then Binary64.nearest negative (n * Nat.pow 10 e.toNat) 1
  else Binary64.nearest negative n (Nat.pow 10 (-e).toNat)

/-- The number with a point, an exponent or a name that a scalar writes. -/
def float? (cs : List Char) : Option FloatValue :=
  let unplussed := match cs with
    | '+' :: cs => cs
    | cs => cs
  let isAny (cs : List Char) (names : List String) : Bool := names.any fun n => n.toList == cs
  if isAny unplussed [".inf", ".Inf", ".INF"] then some .infinite
  else if isAny cs ["-.inf", "-.Inf", "-.INF"] then some .negativeInfinite
  else if isAny cs [".nan", ".NaN", ".NAN"] then some .notANumber
  else match cs with
    | '-' :: cs => (decimal? true cs).map .finite
    | _ => (decimal? false unplussed).map .finite

def bool? (s : String) : Option Bool :=
  if ["true", "True", "TRUE"].contains s then some true
  else if ["false", "False", "FALSE"].contains s then some false
  else none

def isNull (s : String) : Bool := ["null", "Null", "NULL", "~"].contains s

/-- An integer as a node. It has to fit 64 bits, unless it does not even fit 128 bits and counts
as a text or as a number with an exponent. -/
def ofInt? (n : Int) : Option (Option Node) :=
  if -0x8000000000000000 ≤ n ∧ n < 0x10000000000000000 then some (some (.int n))
  else if -0x80000000000000000000000000000000 ≤ n ∧ n < 0x100000000000000000000000000000000 then
    none
  else some none

/-- The node of a plain scalar without a tag; none for an integer that is too large. -/
def resolve? (cs : List Char) : Option Node :=
  let s := String.ofList cs
  if cs.isEmpty || isNull s then some .null
  else match bool? s with
    | some b => some (.bool b)
    | none =>
      let other : Node :=
        if isPaddedDigits cs then .str s
        else match float? cs with
          | some x => .float x
          | none => .str s
      match (integer? cs).map ofInt? with
      | none => some other
      -- an integer that fits 128 bits but not 64 is refused, a larger one is read as something else
      | some none => none
      | some (some none) => some other
      | some (some (some node)) => some node

/-- The node of a scalar with a tag that does not begin with an exclamation mark. -/
def tagged? (tag cs : List Char) : Option Node :=
  let s := String.ofList cs
  let is (kind : String) : Bool := tag == ("tag:yaml.org,2002:" ++ kind).toList
  if is "bool" then (bool? s).map .bool
  else if is "int" then (integer? cs).bind fun n => (ofInt? n).join
  else if is "float" then (float? cs).map .float
  else if is "null" then if isNull s then some .null else none
  else some (.str s)

end Plain

/-! ### Equality of nodes -/

/-- Whether two numbers are the same key; zero has one sign, and what is not a number is itself. -/
def FloatValue.same : FloatValue → FloatValue → Bool
  | .finite x, .finite y => x == y || (x.isZero && y.isZero)
  | x, y => x == y

mutual

/-- Whether two nodes are the same key. The order of a mapping does not count. -/
def Node.same : Node → Node → Bool
  | .null, .null => true
  | .bool a, .bool b => a == b
  | .int a, .int b => a == b
  | .float x, .float y => x.same y
  | .str s, .str t => s == t
  | .seq xs, .seq ys => Node.sameItems xs ys
  | .map ps, .map qs => ps.length == qs.length && Node.sameMap ps qs
  | .tagged s x, .tagged t y => s == t && x.same y
  | _, _ => false

def Node.sameItems : List Node → List Node → Bool
  | [], [] => true
  | x :: xs, y :: ys => x.same y && Node.sameItems xs ys
  | _, _ => false

def Node.sameMap : List (Node × Node) → List (Node × Node) → Bool
  | [], _ => true
  | (k, x) :: ps, qs => (qs.any fun q => k.same q.1 && x.same q.2) && Node.sameMap ps qs

end

/-! ### From events to a tree -/

namespace Node

/-- An event with its anchor and aliases replaced by numbers. -/
inductive Linked
  | alias (id : Nat)
  | event (e : Event)

/-- Replace the names of aliases by numbers. The number of an anchor is the number of names that
were known before it; a name that is given anew keeps no older place. The result has the place of
each number, the latest first; none if an alias is unknown. -/
def link : (place : Nat) → (names : List (List Char × Nat)) → (places : List (Nat × Nat)) →
    List Event → Option (List Linked × List (Nat × Nat))
  | _, _, places, [] => some ([], places)
  | place, names, places, e :: es => do
    let anchor := match e with
      | .scalar a _ _ _ | .sequenceStart a _ | .mappingStart a _ => a
      | _ => none
    let (names', places) := match anchor with
      | none => (names, places)
      | some a =>
        -- an anchor that is given anew hides the older one from the aliases after it
        let id := names.length
        ((a, id) :: names.filter (·.1 != a), (id, place) :: places)
    let linked ← match e with
      | .alias a => (names.find? (·.1 == a)).map fun n => Linked.alias n.2
      | e => some (.event e)
    let (rest, places) ← link (place + 1) names' places es
    return (linked :: rest, places)

/-- The most collections that may be nested. -/
def maxDepth : Nat := 128

/-- A document: its events and the places of its anchors. -/
structure Document where
  events : Array Linked
  places : List (Nat × Nat)

/-- Drop an exclamation mark in front, unless nothing else is there. -/
def unmarked : List Char → List Char
  | '!' :: c :: cs => c :: cs
  | cs => cs

/-- The name under which a node is kept if its tag begins with an exclamation mark: up to two marks
in front count as one, but a mark alone as two. -/
def markedTag? : Option (List Char) → Option String
  | some ('!' :: cs) => some (String.ofList ('!' :: unmarked (unmarked ('!' :: cs))))
  | _ => none

/-- The node of a scalar. A tag counts only if `useTag`. -/
def ofScalar? (useTag : Bool) (tag : Option (List Char)) (text : List Char) (style : ScalarStyle) :
    Option Node :=
  match if useTag then tag else none with
  | some t => Plain.tagged? t text
  | none => if style == .plain then Plain.resolve? text else some (.str (String.ofList text))

mutual

/-- The node at a place, the place after it, and the number of aliases followed so far. `depth`
collections may still be opened. -/
def compose (d : Document) : (steps depth : Nat) → (useTag : Bool) → (place jumps : Nat) →
    Option (Node × Nat × Nat)
  | 0, _, _, _, _ => none
  | steps + 1, depth, useTag, place, jumps => do
    let marked (tag : Option (List Char)) (plain : Option (Node × Nat × Nat)) :
        Option (Node × Nat × Nat) :=
      match if useTag then markedTag? tag else none with
      | some t => do
        let (node, after, jumps) ← compose d steps depth false place jumps
        return (.tagged t node, after, jumps)
      | none => plain
    match ← d.events[place]? with
    | .alias id =>
      if jumps + 1 > 100 * d.events.size then none
      let (_, target) ← d.places.find? (·.1 == id)
      -- the node is read again at its anchor, and the alias itself is one place long
      let (node, _, jumps) ← compose d steps depth true target (jumps + 1)
      return (node, place + 1, jumps)
    | .event (.scalar _ tag text style) =>
      marked tag (do return (← ofScalar? useTag tag text style, place + 1, jumps))
    | .event (.sequenceStart _ tag) =>
      marked tag (match depth with
        | 0 => none
        | depth + 1 => composeItems d steps depth [] (place + 1) jumps)
    | .event (.mappingStart _ tag) =>
      marked tag (match depth with
        | 0 => none
        | depth + 1 => composePairs d steps depth [] (place + 1) jumps)
    | .event _ => none

/-- The items of a sequence up to its end; those found, the last one first. -/
def composeItems (d : Document) : (steps depth : Nat) → (found : List Node) →
    (place jumps : Nat) → Option (Node × Nat × Nat)
  | 0, _, _, _, _ => none
  | steps + 1, depth, found, place, jumps => do
    match ← d.events[place]? with
    | .event .sequenceEnd => return (.seq found.reverse, place + 1, jumps)
    | _ =>
      let (node, place, jumps) ← compose d steps depth true place jumps
      composeItems d steps depth (node :: found) place jumps

/-- The pairs of a mapping up to its end; those found, the last one first. No key may stand
twice. -/
def composePairs (d : Document) : (steps depth : Nat) → (found : List (Node × Node)) →
    (place jumps : Nat) → Option (Node × Nat × Nat)
  | 0, _, _, _, _ => none
  | steps + 1, depth, found, place, jumps => do
    match ← d.events[place]? with
    | .event .mappingEnd => return (.map found.reverse, place + 1, jumps)
    | _ =>
      let (key, place, jumps) ← compose d steps depth true place jumps
      if found.any fun p => p.1.same key then none
      let (value, place, jumps) ← compose d steps depth true place jumps
      composePairs d steps depth ((key, value) :: found) place jumps

end

/-- The tree of the events of a document; null if there are none. Every alias is followed through
at most all events, and the number of aliases is limited, which bounds the steps. -/
def ofEvents? (events : List Event) : Option Node := do
  if events.isEmpty then return .null
  let (linked, places) ← link 0 [] [] events
  let n := linked.length
  let steps := (100 * n + 2) * (2 * n + 4)
  let (node, _, _) ← compose ⟨linked.toArray, places⟩ steps maxDepth true 0 0
  return node

/-- The tree of a text; none if the text is not well-formed. -/
def ofText? (text : String) : Option Node := do
  ofEvents? (← Event.ofTokens? (← Token.scan text.toList))

/-! ### JSON -/

/-- The text of a key; only scalars other than null have one. -/
def keyText? : Node → Option String
  | .str s => some s
  | .bool b => some (if b then "true" else "false")
  | .int n => some (toString n)
  | .float (.finite x) => some x.text
  | _ => none

mutual

/-- A tree as JSON. What is infinite or not a number becomes null, and a tag becomes the only name
of an object. There is none if a key has no text. -/
def toJson? : Node → Option Json
  | .null => some .null
  | .bool b => some (.bool b)
  | .int n => some (.ofInt n)
  | .float (.finite x) => some (.num (.real x))
  | .float _ => some .null
  | .str s => some (.str s)
  | .seq xs => do return .arr (← itemsJson? xs)
  | .map ps => do return .obj (← pairsJson? ps)
  | .tagged t x => do return .obj [(t, ← x.toJson?)]

def itemsJson? : List Node → Option (List Json)
  | [] => some []
  | x :: xs => do return (← x.toJson?) :: (← itemsJson? xs)

def pairsJson? : List (Node × Node) → Option (List (String × Json))
  | [] => some []
  | (k, x) :: ps => do
    let name ← k.keyText?
    return (name, ← x.toJson?) :: (← pairsJson? ps)

end

end Node

end Prospectus.Yaml
