import Prospectus.Pattern.Basic

/-!
# Searching for patterns

A search follows all ways to match at once, character by character, in the order in which they
are preferred, and reports the leftmost match and of several with one start the preferred one.
`replaceAll` replaces successive matches.
-/

namespace Prospectus.Pattern

/-! ### One step of a match -/

/-- What a pattern can do next: end here, or take a character of a class and go on with the rest
of the pattern. -/
inductive Move
  | stop
  | take (c : CharClass) (rest : List Pattern)
  deriving DecidableEq

/-- Put `after` behind every move and replace the first end by the moves `next`. Further ends
would lead to the same moves. -/
def goOn (after : List Pattern) (next : Unit → List Move) : List Move → List Move
  | [] => []
  | .take c rest :: ms => .take c (rest ++ after) :: goOn after next ms
  | .stop :: ms => next () ++ goOn after (fun _ => []) ms

/-- The moves of a pattern between two characters, the preferred one first. A repetition goes
through its pattern anew only after a character was taken. -/
def moves (before after : Option Char) : Pattern → List Move
  | empty => [.stop]
  | char c => [.take c []]
  | look l => if l.holds before after then [.stop] else []
  | cat a b => goOn [b] (fun _ => b.moves before after) (a.moves before after)
  | alt a b => a.moves before after ++ b.moves before after
  | loop a greedy =>
    let more := goOn [loop a greedy] (fun _ => []) (a.moves before after)
    if greedy then more ++ [.stop] else .stop :: more
  | oneOrMore a greedy => goOn [loop a greedy] (fun _ => [.stop]) (a.moves before after)

/-- The moves of patterns that follow one another. -/
def movesAll (before after : Option Char) : List Pattern → List Move
  | [] => [.stop]
  | p :: ps => goOn ps (fun _ => movesAll before after ps) (p.moves before after)

/-! ### Threads -/

/-- A match that has begun: where, and what is left of the pattern. -/
structure Thread where
  start : Nat
  rest : List Pattern
  deriving DecidableEq

/-- Follow threads in order up to the first one that can end: the characters that they can take,
with the thread after it, and the start of the one that ends. -/
def follow (before after : Option Char) : List Thread → List (CharClass × Thread) × Option Nat
  | [] => ([], none)
  | t :: ts =>
    let ms := movesAll before after t.rest
    let taken := (ms.takeWhile (· != .stop)).filterMap fun
      | .stop => none
      | .take c rest => some (c, ⟨t.start, rest⟩)
    if ms.contains .stop then (taken, some t.start)
    else
      let (more, stop) := follow before after ts
      (taken ++ more, stop)

/-- Keep of the threads with one rest the first. -/
def distinct : List Thread → List Thread
  | [] => []
  | t :: ts => t :: (distinct ts).filter fun u => u.rest != t.rest

/-- Advance threads by a character. -/
def advance (c : Char) (steps : List (CharClass × Thread)) : List Thread :=
  distinct ((steps.filter fun s => s.1.contains c).map Prod.snd)

/-- Go on with a search at a position. As long as no match is known, a new one may begin at every
position. Once no thread is left, a known match is the result. -/
def search (p : Pattern) (before : Option Char) (position : Nat) (threads : List Thread)
    (known : Option (Nat × Nat)) : List Char → Option (Nat × Nat)
  | [] =>
    let threads := if known.isNone then threads ++ [⟨position, [p]⟩] else threads
    match (follow before none threads).2 with
    | some start => some (start, position)
    | none => known
  | c :: cs =>
    let threads := if known.isNone then threads ++ [⟨position, [p]⟩] else threads
    let (steps, stop) := follow before (some c) threads
    let known := match stop with
      | some start => some (start, position)
      | none => known
    let threads := advance c steps
    if threads.isEmpty && known.isSome then known
    else search p (some c) (position + 1) threads known cs

/-- The leftmost match in a text that comes after a character, as the positions of its ends. -/
def find? (p : Pattern) (before : Option Char) (cs : List Char) : Option (Nat × Nat) :=
  search p before 0 [] none cs

def occursIn (p : Pattern) (cs : List Char) : Bool := (p.find? none cs).isSome

/-! ### Replacing -/

/-- The last character of `cs`, or the one before if `cs` is empty. -/
def lastOf (before : Option Char) (cs : List Char) : Option Char := cs.getLast?.or before

/-- Replace successive matches. A match begins where the one before ended or later; an empty
match right where the one before ended is none. Every step passes over a character or is followed
by one that does, so twice the length of the text bounds the steps. -/
def replaceFrom (p : Pattern) (new : List Char) : (steps : Nat) → (before : Option Char) →
    (afterMatch : Bool) → List Char → List Char
  | 0, _, _, cs => cs
  | steps + 1, before, afterMatch, cs =>
    match p.find? before cs with
    | none => cs
    | some (i, j) =>
      if afterMatch && i == 0 && j == 0 then
        match cs with
        | [] => []
        | c :: cs => c :: replaceFrom p new steps (some c) false cs
      else
        cs.take i ++ new ++ replaceFrom p new steps (lastOf before (cs.take j)) true (cs.drop j)

def replaceAll (p : Pattern) (new cs : List Char) : List Char :=
  replaceFrom p new (2 * cs.length + 2) none false cs

end Prospectus.Pattern
