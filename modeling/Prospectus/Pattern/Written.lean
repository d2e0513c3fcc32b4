import Prospectus.Pattern.Basic

/-!
# Written patterns

The tree of a pattern as it is written: flags such as case folding are not applied yet, and names of
properties are not looked up. How deep a tree is nested can be read off it (`Written.depth`); how
much room it takes depends on what its names stand for, so that is said in
`Prospectus.Pattern.Dialect`, and what the tree means in `Prospectus.Pattern.Meaning`.
-/

namespace Prospectus.Pattern

/-! ### The tree -/

/-- A property of characters by its name as it is written, and its value if one is given. -/
structure Property where
  name : List Char
  value? : Option (List Char) := none
  deriving DecidableEq

inductive NamedClass
  /-- The classes of `\d`, `\s` and `\w`. -/
  | decimal | blank | word
  /-- A class of ASCII characters, as code point ranges. -/
  | ascii (ranges : List (Nat × Nat))
  /-- The characters that have a property. -/
  | property (p : Property)
  deriving DecidableEq

/-- What stands between brackets. -/
inductive ClassSet
  | nothing
  /-- The code points of a range. -/
  | range (first last : Nat)
  | named (name : NamedClass) (negated : Bool)
  | union (a b : ClassSet)
  | bracket (negated : Bool) (a : ClassSet)
  | intersection (a b : ClassSet)
  | difference (a b : ClassSet)
  | symmetric (a b : ClassSet)

inductive Flag
  | caseInsensitive | multiLine | dotAll | swapGreed | unicode | crlf | verbose
  deriving DecidableEq

structure Flags where
  caseInsensitive : Bool := false
  multiLine : Bool := false
  dotAll : Bool := false
  swapGreed : Bool := false
  unicode : Bool := true
  crlf : Bool := false
  deriving DecidableEq

/-- Switch a flag. Whether white space is passed over concerns the writing alone. -/
def Flags.set (fs : Flags) (f : Flag) (on : Bool) : Flags :=
  match f with
  | .caseInsensitive => { fs with caseInsensitive := on }
  | .multiLine => { fs with multiLine := on }
  | .dotAll => { fs with dotAll := on }
  | .swapGreed => { fs with swapGreed := on }
  | .unicode => { fs with unicode := on }
  | .crlf => { fs with crlf := on }
  | .verbose => fs

def Flags.setAll (fs : Flags) (changes : List (Flag × Bool)) : Flags :=
  changes.foldl (fun fs c => fs.set c.1 c.2) fs

inductive WrittenLook
  | caret | dollar | textStart | textEnd | wordEdge | notWordEdge
  | wordStart | wordEnd | wordStartHalf | wordEndHalf
  deriving DecidableEq

/-- A pattern as it is written. -/
inductive Written
  | empty
  | flags (changes : List (Flag × Bool))
  /-- A character; `byte` if it was written by two hexadecimal digits. -/
  | literal (c : Char) (byte : Bool)
  | dot
  | look (l : WrittenLook)
  | named (name : NamedClass) (negated : Bool)
  | bracket (negated : Bool) (set : ClassSet)
  | repeated (a : Written) (least : Nat) (most : Option Nat) (greedy : Bool)
  /-- What stands in parentheses, under changed flags; `captures` unless it begins with flags or a
  colon. -/
  | group (captures : Bool) (changes : List (Flag × Bool)) (a : Written)
  | cat (a b : Written)
  | alt (a b : Written)

/-! ### Limits -/

mutual

/-- How deep a set is nested. The items of a set that has several are one level below it. -/
def ClassSet.depth : ClassSet → Nat
  | .nothing | .range _ _ | .named _ _ => 0
  | .union a b => max a.unionDepth b.depth + 1
  | .bracket _ a => a.depth + 1
  | .intersection a b | .difference a b | .symmetric a b => max a.depth b.depth + 1

/-- The depth below items that further ones follow. -/
def ClassSet.unionDepth : ClassSet → Nat
  | .union a b => max a.unionDepth b.depth
  | .nothing | .range _ _ | .named _ _ => 0
  | .bracket _ a => a.depth + 1
  | .intersection a b | .difference a b | .symmetric a b => max a.depth b.depth + 1

end

mutual

/-- How deep a pattern is nested. A sequence of several patterns is one level, and so is a choice
among several. -/
def Written.depth : Written → Nat
  | .empty | .flags _ | .literal _ _ | .dot | .look _ | .named _ _ => 0
  | .bracket _ set => set.depth + 1
  | .repeated a _ _ _ => a.depth + 1
  | .group _ _ a => a.depth + 1
  | .cat a b => max a.depth b.catDepth + 1
  | .alt a b => max a.depth b.altDepth + 1

/-- The depth below a sequence that goes on. -/
def Written.catDepth : Written → Nat
  | .cat a b => max a.depth b.catDepth
  | .empty | .flags _ | .literal _ _ | .dot | .look _ | .named _ _ => 0
  | .bracket _ set => set.depth + 1
  | .repeated a _ _ _ => a.depth + 1
  | .group _ _ a => a.depth + 1
  | .alt a b => max a.depth b.altDepth + 1

/-- The depth below a choice that goes on. -/
def Written.altDepth : Written → Nat
  | .alt a b => max a.depth b.altDepth
  | .empty | .flags _ | .literal _ _ | .dot | .look _ | .named _ _ => 0
  | .bracket _ set => set.depth + 1
  | .repeated a _ _ _ => a.depth + 1
  | .group _ _ a => a.depth + 1
  | .cat a b => max a.depth b.catDepth + 1

end

/-- The greatest depth of a pattern. -/
def maxDepth : Nat := 250

end Prospectus.Pattern
