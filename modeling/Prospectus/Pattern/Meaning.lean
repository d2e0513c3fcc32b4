import Prospectus.Pattern.Dialect

/-!
# What written patterns mean

The pattern that a tree stands for. A tree is gone through from left to right, since a flag that is
switched counts from there to the end of its group. Some trees mean nothing: they name a property
that does not exist, or they would match a part of a character.
-/

namespace Prospectus.Pattern

/-! ### Flags -/

/-- The class with both cases of its characters if case does not matter. -/
def Flags.fold (fs : Flags) (c : CharClass) : CharClass :=
  if fs.caseInsensitive then if fs.unicode then .folded c else .foldedAscii c else c

def asciiClass (ranges : List (Nat × Nat)) : CharClass :=
  .oneOf (ranges.map fun r => .range r.1 r.2)

/-- ASCII letters, digits and the underscore. -/
def asciiWord : List (Nat × Nat) := [(0x30, 0x39), (0x41, 0x5A), (0x5F, 0x5F), (0x61, 0x7A)]

def WrittenLook.toLook (fs : Flags) : WrittenLook → Look
  | caret => if fs.multiLine then if fs.crlf then .lineStartAny else .lineStart else .textStart
  | dollar => if fs.multiLine then if fs.crlf then .lineEndAny else .lineEnd else .textEnd
  | textStart => .textStart
  | textEnd => .textEnd
  | wordEdge => .wordEdge !fs.unicode
  | notWordEdge => .notWordEdge !fs.unicode
  | wordStart => .wordStart !fs.unicode
  | wordEnd => .wordEnd !fs.unicode
  | wordStartHalf => .wordStartHalf !fs.unicode
  | wordEndHalf => .wordEndHalf !fs.unicode

/-! ### Classes and patterns -/

section

variable [Dialect]

/-- The class of a name. Without Unicode a class may hold ASCII characters only. -/
def NamedClass.toClass? (fs : Flags) (negated : Bool) (name : NamedClass) : Option CharClass :=
  let withSign (c : CharClass) : CharClass := if negated then .not c else c
  if fs.unicode then
    match name with
    | decimal => some (withSign .decimal)
    | blank => some (withSign .blank)
    | word => some (withSign .word)
    -- case is folded before the class is negated
    | ascii rs => some (withSign (fs.fold (asciiClass rs)))
    | property p => do return withSign (fs.fold (← p.toClass?))
  else if negated then none
  else match name with
    | decimal => some (asciiClass [(0x30, 0x39)])
    | blank => some (asciiClass [(0x09, 0x0D), (0x20, 0x20)])
    | word => some (asciiClass asciiWord)
    | ascii rs => some (asciiClass rs)
    | property _ => none

/-- The class of a set. The characters are folded within each bracket and on both sides of an
operation. -/
def ClassSet.toClass? (fs : Flags) : ClassSet → Option CharClass
  | nothing => some .none
  | range first last => if !fs.unicode && last > 0x7F then none else some (.range first last)
  | named n negated => n.toClass? fs negated
  | union a b => do return .or (← a.toClass? fs) (← b.toClass? fs)
  | bracket negated a => do
    let c := fs.fold (← a.toClass? fs)
    if negated then if fs.unicode then some (.not c) else none else some c
  | intersection a b => do return .and (fs.fold (← a.toClass? fs)) (fs.fold (← b.toClass? fs))
  | difference a b => do return .without (fs.fold (← a.toClass? fs)) (fs.fold (← b.toClass? fs))
  | symmetric a b => do return .exclusive (fs.fold (← a.toClass? fs)) (fs.fold (← b.toClass? fs))

/-- The pattern that is meant under some flags, and the flags after it. Flags that are switched
inside a group hold up to its end. -/
def Written.toPattern? (fs : Flags) : Written → Option (Pattern × Flags)
  | .empty => some (.empty, fs)
  | .flags changes => some (.empty, fs.setAll changes)
  | .literal c byte =>
    if !fs.unicode && byte && c.toNat > 0x7F then none
    else some (.char (fs.fold (.one c)), fs)
  | .dot =>
    if !fs.unicode then none
    else if fs.dotAll then some (.char .any, fs)
    else if fs.crlf then some (.char (.not (.or (.one '\n') (.one '\r'))), fs)
    else some (.char (.not (.one '\n')), fs)
  | .look l => some (.look (l.toLook fs), fs)
  | .named n negated => do return (.char (← n.toClass? fs negated), fs)
  | .bracket negated set => do return (.char (← (ClassSet.bracket negated set).toClass? fs), fs)
  | .repeated a least most greedy => do
    let (p, _) ← a.toPattern? fs
    let greedy := greedy != fs.swapGreed
    match most with
    | none => return (p.atLeast least greedy, fs)
    | some most => return (p.between least most greedy, fs)
  | .group _ changes a => do
    let (p, _) ← a.toPattern? (fs.setAll changes)
    return (p, fs)
  | .cat a b => do
    let (p, fs) ← a.toPattern? fs
    let (q, fs) ← b.toPattern? fs
    return (.cat p q, fs)
  | .alt a b => do
    let (p, fs) ← a.toPattern? fs
    let (q, fs) ← b.toPattern? fs
    return (.alt p q, fs)

end

end Prospectus.Pattern
