import Prospectus.Yaml.Token

/-!
# Events of a YAML document

`Event.ofTokens?` reads the grammar: the tokens of a text become the events of its document, in
which every collection has a start and an end and every missing key or value is an empty scalar.
A text has at most one document.
-/

namespace Prospectus.Yaml

/-- A part of a document. -/
inductive Event
  | alias (name : List Char)
  | scalar (anchor tag : Option (List Char)) (text : List Char) (style : ScalarStyle)
  | sequenceStart (anchor tag : Option (List Char))
  | sequenceEnd
  | mappingStart (anchor tag : Option (List Char))
  | mappingEnd
  deriving DecidableEq

namespace Event

/-! ### The state of the reader -/

/-- What is expected next. -/
inductive Phase
  /-- A node; `block` if it may be a block collection, `sequence` if it may be a block sequence
  that is not indented. -/
  | node (block sequence : Bool)
  | blockSequence
  | looseSequence
  | blockKey
  | blockValue
  | flowSequence (first : Bool)
  /-- The key, the value and the end of a single pair in a flow sequence. -/
  | pairKey
  | pairValue
  | pairEnd
  | flowKey (first : Bool)
  | flowValue
  /-- The missing value of a flow mapping. -/
  | flowNoValue
  | complete
  deriving DecidableEq

/-- The tokens left, what comes after the node at hand, the tag shorthands, and the events so far,
the last one first. -/
structure State where
  tokens : List Token
  after : List Phase
  shorthands : List (List Char × List Char)
  events : List Event

/-- A reader of a part of the grammar. -/
abbrev Parse := StateT State Option

/-- The next token. A list of tokens ends with the end of the stream. -/
def peek : Parse Token := return (← get).tokens.head?.getD .streamEnd

def skip : Parse Unit := modify fun s => { s with tokens := s.tokens.drop 1 }

def emit (e : Event) : Parse Unit := modify fun s => { s with events := e :: s.events }

def emitEmpty : Parse Unit := emit (.scalar none none [] .plain)

/-- Come back to a phase after the node that comes next. -/
def push (p : Phase) : Parse Unit := modify fun s => { s with after := p :: s.after }

/-- The phase after the node that is complete. -/
def pop : Parse Phase := do
  let s ← get
  match s.after with
  | [] => return .complete
  | p :: ps =>
    set { s with after := ps }
    return p

/-! ### Nodes -/

/-- The anchor and the tag before a node, in either order. -/
def properties : Parse (Option (List Char) × Option (List Char × List Char)) := do
  match ← peek with
  | .anchor a =>
    skip
    match ← peek with
    | .tag h t =>
      skip
      return (some a, some (h, t))
    | _ => return (some a, none)
  | .tag h t =>
    skip
    match ← peek with
    | .anchor a =>
      skip
      return (some a, some (h, t))
    | _ => return (none, some (h, t))
  | _ => return (none, none)

/-- The full tag of a handle and a suffix. -/
def fullTag (handle suffix : List Char) : Parse (List Char) := do
  if handle.isEmpty then return suffix
  match (← get).shorthands.find? fun s => s.1 == handle with
  | some s => return s.2 ++ suffix
  | none => failure

/-- Read a node. -/
def node (block sequence : Bool) : Parse Phase := do
  match ← peek with
  | .alias name =>
    skip
    emit (.alias name)
    pop
  | _ =>
    let (anchor, shorthand) ← properties
    let tag ← match shorthand with
      | none => pure none
      | some (h, t) => some <$> fullTag h t
    match ← peek with
    | .blockEntry =>
      if sequence then
        emit (.sequenceStart anchor tag)
        return .looseSequence
      else bare anchor tag
    | .scalar text style =>
      skip
      emit (.scalar anchor (if tag == some ['!'] then none else tag) text style)
      pop
    | .flowSequenceStart =>
      skip
      emit (.sequenceStart anchor tag)
      return .flowSequence true
    | .flowMappingStart =>
      skip
      emit (.mappingStart anchor tag)
      return .flowKey true
    | .blockSequenceStart =>
      if block then
        skip
        emit (.sequenceStart anchor tag)
        return .blockSequence
      else bare anchor tag
    | .blockMappingStart =>
      if block then
        skip
        emit (.mappingStart anchor tag)
        return .blockKey
      else bare anchor tag
    | _ => bare anchor tag
where
  /-- A node that has properties and nothing else. -/
  bare (anchor tag : Option (List Char)) : Parse Phase := do
    if anchor.isSome || tag.isSome then
      emit (.scalar anchor tag [] .plain)
      pop
    else failure

/-- Read a node and come back to `after`, or leave an empty scalar if the node is missing. -/
def nodeOr (missing : Token → Bool) (after : Phase) (block sequence : Bool) : Parse Phase := do
  if missing (← peek) then
    emitEmpty
    return after
  else
    push after
    return .node block sequence

/-! ### Collections -/

/-- Tokens after which a block has no key or value. -/
def endsBlockItem : Token → Bool
  | .key | .value | .blockEnd => true
  | _ => false

/-- Tokens before which a flow mapping has no value. -/
def endsFlowValue : Token → Bool
  | .flowEntry | .flowMappingEnd => true
  | _ => false

def endSequence : Parse Phase := do
  emit .sequenceEnd
  pop

def endMapping : Parse Phase := do
  emit .mappingEnd
  pop

def step (p : Phase) : Parse Phase := do
  match p with
  | .node block sequence => node block sequence
  | .blockSequence =>
    match ← peek with
    | .blockEntry =>
      skip
      nodeOr (fun t => t == .blockEntry || t == .blockEnd) .blockSequence true false
    | .blockEnd =>
      skip
      endSequence
    | _ => failure
  | .looseSequence =>
    match ← peek with
    | .blockEntry =>
      skip
      nodeOr (fun t => t == .blockEntry || endsBlockItem t) .looseSequence true false
    | _ => endSequence
  | .blockKey =>
    match ← peek with
    | .key =>
      skip
      nodeOr endsBlockItem .blockValue true true
    | .blockEnd =>
      skip
      endMapping
    | _ => failure
  | .blockValue =>
    match ← peek with
    | .value =>
      skip
      nodeOr endsBlockItem .blockKey true true
    | _ =>
      emitEmpty
      return .blockKey
  | .flowSequence first =>
    if (← peek) == .flowSequenceEnd then
      skip
      endSequence
    else
      if !first then if (← peek) == .flowEntry then skip else failure
      match ← peek with
      | .key =>
        skip
        -- a pair that stands in a sequence by itself is a mapping of its own
        emit (.mappingStart none none)
        return .pairKey
      | .flowSequenceEnd =>
        skip
        endSequence
      | _ =>
        push (.flowSequence false)
        return .node false false
  | .pairKey =>
    match ← peek with
    | .value | .flowEntry | .flowSequenceEnd =>
      skip
      emitEmpty
      return .pairValue
    | _ =>
      push .pairValue
      return .node false false
  | .pairValue =>
    match ← peek with
    | .value =>
      skip
      nodeOr (fun t => t == .flowEntry || t == .flowSequenceEnd) .pairEnd false false
    | _ =>
      emitEmpty
      return .pairEnd
  | .pairEnd =>
    emit .mappingEnd
    return .flowSequence false
  | .flowKey first =>
    if (← peek) == .flowMappingEnd then
      skip
      endMapping
    else
      if !first then if (← peek) == .flowEntry then skip else failure
      match ← peek with
      | .key =>
        skip
        nodeOr (fun t => t == .value || endsFlowValue t) .flowValue false false
      | .flowMappingEnd =>
        skip
        endMapping
      | _ =>
        -- a node without the sign of a key is a key without a value
        push .flowNoValue
        return .node false false
  | .flowValue =>
    match ← peek with
    | .value =>
      skip
      nodeOr endsFlowValue (.flowKey false) false false
    | _ =>
      emitEmpty
      return .flowKey false
  | .flowNoValue =>
    emitEmpty
    return .flowKey false
  | .complete => return .complete

/-- Take steps up to the end of the document. -/
def run : (steps : Nat) → Phase → Parse Unit
  | 0, _ => failure
  | steps + 1, p => do
    match p with
    | .complete => return
    | p => run steps (← step p)

/-! ### Documents -/

/-- Shorthands that need no directive. -/
def knownShorthands : List (List Char × List Char) :=
  [(['!'], ['!']), (['!', '!'], "tag:yaml.org,2002:".toList)]

/-- Read directives: at most one version, which is 1.1 or 1.2, and no shorthand twice. -/
def directives : (versionMet : Bool) → (found : List (List Char × List Char)) → List Token →
    Option (List (List Char × List Char) × List Token)
  | versionMet, found, .version major minor :: tokens =>
    if versionMet || major != 1 || (minor != 1 && minor != 2) then none
    else directives true found tokens
  | versionMet, found, .tagShorthand handle start :: tokens =>
    if found.any fun s => s.1 == handle then none
    else directives versionMet (found ++ [(handle, start)]) tokens
  | _, found, tokens => some (found ++ knownShorthands, tokens)

/-- Whether a document has no content. -/
def endsDocument : Token → Bool
  | .version _ _ | .tagShorthand _ _ | .documentStart | .documentEnd | .streamEnd => true
  | _ => false

/-- The events of the content of a document. Tokens and events are bounded by each other, so a
multiple of the number of tokens bounds the steps. -/
def content (shorthands : List (List Char × List Char)) (explicit : Bool) (tokens : List Token) :
    Option (List Event × List Token) := do
  let reader : Parse Unit := do
    if explicit && endsDocument (← peek) then emitEmpty
    else run (8 * tokens.length + 8) (.node true false)
  let (_, s) ← reader.run ⟨tokens, [], shorthands, []⟩
  return (s.events.reverse, s.tokens)

/-- Whether nothing but ends of documents follows. -/
def endsStream : List Token → Bool
  | .documentEnd :: tokens => endsStream tokens
  | [.streamEnd] => true
  | _ => false

/-- The events of the only document; there are none in a text without a document. -/
def ofTokens? (tokens : List Token) : Option (List Event) :=
  match tokens with
  | [.streamEnd] => some []
  | .version _ _ :: _ | .tagShorthand _ _ :: _ | .documentStart :: _ => do
    let (shorthands, tokens) ← directives false [] tokens
    match tokens with
    | .documentStart :: tokens =>
      let (events, tokens) ← content shorthands true tokens
      if endsStream tokens then some events else none
    | _ => none
  | _ => do
    let (events, tokens) ← content knownShorthands false tokens
    if endsStream tokens then some events else none

end Event

end Prospectus.Yaml
