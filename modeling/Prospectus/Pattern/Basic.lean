import Prospectus.Text.Category

/-!
# Patterns

Regular expressions over characters, with assertions about the place between two characters.
`Pattern.Matches` says what a pattern matches; the order in which a search prefers one match to
another is the business of `Prospectus.Pattern.Search`.
-/

namespace Prospectus

/-! ### Classes of characters -/

/-- A class of characters. -/
inductive CharClass
  /-- The code points from `first` to `last`. -/
  | range (first last : Nat)
  | blank
  | decimal
  | word
  | category (k : Text.Category)
  | not (a : CharClass)
  | or (a b : CharClass)
  | and (a b : CharClass)
  /-- The class with all variants of its characters under simple case folding. -/
  | folded (a : CharClass)
  /-- The class with both cases of its ASCII letters. -/
  | foldedAscii (a : CharClass)
  deriving DecidableEq, Inhabited

namespace CharClass

def swapAscii (c : Char) : Char := if c.isUpper then c.toLower else c.toUpper

def contains : CharClass → Char → Bool
  | range first last, c => first ≤ c.toNat && c.toNat ≤ last
  | blank, c => Text.isBlank c
  | decimal, c => Text.isDecimal c
  | word, c => Text.isWord c
  | category k, c => Text.category c == k
  | not a, c => !a.contains c
  | or a b, c => a.contains c || b.contains c
  | and a b, c => a.contains c && b.contains c
  | folded a, c => a.contains c || (Text.caseVariants c).any a.contains
  | foldedAscii a, c => a.contains c || a.contains (swapAscii c)

def none : CharClass := range 1 0

def any : CharClass := not none

def one (c : Char) : CharClass := range c.toNat c.toNat

def oneOf (classes : List CharClass) : CharClass := classes.foldr or none

/-- The characters of the first class that are not in the second. -/
def without (a b : CharClass) : CharClass := and a (not b)

/-- The characters that are in exactly one of two classes. -/
def exclusive (a b : CharClass) : CharClass := or (without a b) (without b a)

end CharClass

/-! ### Assertions -/

/-- An assertion about the place between two characters. -/
inductive Look
  | textStart
  | textEnd
  | lineStart
  | lineEnd
  /-- Lines that end with a line feed, a carriage return, or the two together. -/
  | lineStartAny
  | lineEndAny
  /-- Assertions about words, of ASCII or of all characters. -/
  | wordEdge (ascii : Bool)
  | notWordEdge (ascii : Bool)
  | wordStart (ascii : Bool)
  | wordEnd (ascii : Bool)
  | wordStartHalf (ascii : Bool)
  | wordEndHalf (ascii : Bool)
  deriving DecidableEq

/-- Whether a character, if there is one, belongs to a word. -/
def Look.inWord (ascii : Bool) : Option Char → Bool
  | none => false
  | some c => if ascii then c.isAlphanum || c == '_' else Text.isWord c

/-- Whether an assertion holds between the character before and the one after. -/
def Look.holds (before after : Option Char) : Look → Bool
  | textStart => before.isNone
  | textEnd => after.isNone
  | lineStart => before.isNone || before == some '\n'
  | lineEnd => after.isNone || after == some '\n'
  | lineStartAny =>
    before.isNone || before == some '\n' || (before == some '\r' && after != some '\n')
  | lineEndAny =>
    after.isNone || after == some '\r' || (after == some '\n' && before != some '\r')
  | wordEdge a => inWord a before != inWord a after
  | notWordEdge a => inWord a before == inWord a after
  | wordStart a => !inWord a before && inWord a after
  | wordEnd a => inWord a before && !inWord a after
  | wordStartHalf a => !inWord a before
  | wordEndHalf a => !inWord a after

/-! ### Patterns -/

/-- A regular expression. Of two ways to go on, `alt` prefers the first; a greedy repetition
prefers to go on repeating, the other kind prefers to stop. -/
inductive Pattern
  | empty
  | char (c : CharClass)
  | look (l : Look)
  | cat (a b : Pattern)
  | alt (a b : Pattern)
  /-- Any number of times. -/
  | loop (a : Pattern) (greedy : Bool)
  | oneOrMore (a : Pattern) (greedy : Bool)
  deriving DecidableEq, Inhabited

namespace Pattern

/-- `Matches p u s v` says that `p` matches the text `s` where it stands between `u` and `v`. -/
inductive Matches : Pattern → List Char → List Char → List Char → Prop
  | empty {u v} : Matches .empty u [] v
  | char {c x u v} : c.contains x = true → Matches (.char c) u [x] v
  | look {l u v} : l.holds u.getLast? v.head? = true → Matches (.look l) u [] v
  | cat {a b u s t v} : Matches a u s (t ++ v) → Matches b (u ++ s) t v →
      Matches (.cat a b) u (s ++ t) v
  | altLeft {a b u s v} : Matches a u s v → Matches (.alt a b) u s v
  | altRight {a b u s v} : Matches b u s v → Matches (.alt a b) u s v
  | loopNone {a g u v} : Matches (.loop a g) u [] v
  | loopMore {a g u s t v} : Matches a u s (t ++ v) → Matches (.loop a g) (u ++ s) t v →
      Matches (.loop a g) u (s ++ t) v
  | oneOrMore {a g u s t v} : Matches a u s (t ++ v) → Matches (.loop a g) (u ++ s) t v →
      Matches (.oneOrMore a g) u (s ++ t) v

/-- The pattern matches somewhere in the text. -/
def Occurs (p : Pattern) (text : List Char) : Prop :=
  ∃ u s v, text = u ++ s ++ v ∧ p.Matches u s v

/-- The pattern matches a part of the text that is not empty. -/
def OccursVisibly (p : Pattern) (text : List Char) : Prop :=
  ∃ u s v, text = u ++ s ++ v ∧ s ≠ [] ∧ p.Matches u s v

/-! ### Building patterns -/

/-- Patterns one after the other. -/
def sequence : List Pattern → Pattern
  | [] => empty
  | [p] => p
  | p :: ps => cat p (sequence ps)

def exactly (c : Char) : Pattern := char (.one c)

def literal (cs : List Char) : Pattern := sequence (cs.map exactly)

/-- A text in any case. -/
def literalAnyCase (cs : List Char) : Pattern :=
  sequence (cs.map fun c => char (.folded (.one c)))

/-- Whether the pattern can match the empty text, assertions aside. -/
def nullable : Pattern → Bool
  | empty | look _ | loop _ _ => true
  | char _ => false
  | cat a b => a.nullable && b.nullable
  | alt a b => a.nullable || b.nullable
  | oneOrMore a _ => a.nullable

def optionally (a : Pattern) (greedy : Bool) : Pattern :=
  if greedy then alt a empty else alt empty a

/-- Any number of times. If one time can be empty, the empty text is matched by going through the
repeated pattern once, or by leaving the repetition out. -/
def zeroOrMore (a : Pattern) (greedy : Bool) : Pattern :=
  if a.nullable then optionally (oneOrMore a greedy) greedy else loop a greedy

def times (a : Pattern) (n : Nat) : Pattern := sequence (List.replicate n a)

def atLeast (a : Pattern) (n : Nat) (greedy : Bool) : Pattern :=
  match n with
  | 0 => zeroOrMore a greedy
  | n + 1 => sequence (List.replicate n a ++ [oneOrMore a greedy])

def atMost (a : Pattern) (n : Nat) (greedy : Bool) : Pattern :=
  match n with
  | 0 => empty
  | 1 => optionally a greedy
  | n + 1 => optionally (cat a (atMost a n greedy)) greedy

def between (a : Pattern) (least most : Nat) (greedy : Bool) : Pattern :=
  sequence (List.replicate least a ++ if least < most then [atMost a (most - least) greedy] else [])

end Pattern

end Prospectus
