import Prospectus.Json.Normal
import Prospectus.Pattern.Reader
import Prospectus.Scrub.Builtin

/-!
# Scrubbing texts

A scrubber takes personal data and texts of the page out of a captured text, shortens runs of
blank lines and trims. It goes on until nothing changes, since what stands around a removed part
may join to something that has to be removed as well.
-/

namespace Prospectus.Scrub

open Pattern

/-- What to take out beside the built-in patterns. Both kinds are given as texts, in the settings.
-/
structure Rules where
  /-- Texts, in any case. -/
  personalLiterals : List String := []
  /-- Regular expressions, which disregard case. -/
  personalPatterns : List String := []
  deriving DecidableEq

/-- Why rules make no scrubber. -/
inductive RulesError
  /-- A personal pattern is no regular expression. -/
  | invalidPattern (pattern : String)
  deriving DecidableEq

/-- The text of the error, up to the explanation. -/
def RulesError.message : RulesError → String
  | .invalidPattern p => "invalid scrub pattern '" ++ p ++ "': "

/-- The personal literals and patterns to take out. Whatever they were made from, a scrubber is a
value of its own, and scrubbing asks nothing else. -/
structure Scrubber where
  literals : List (List Char)
  patterns : List Pattern
  deriving DecidableEq

/-- The scrubber of some rules. Literals are trimmed, and blank literals and patterns count for
nothing. -/
def Scrubber.ofRules [Dialect] (rules : Rules) : Except RulesError Scrubber := do
  let literals := (rules.personalLiterals.map fun l => Text.trim l.toList).filter (!·.isEmpty)
  let patterns ← (rules.personalPatterns.filter fun p => !decide (Text.IsBlank p)).mapM fun p =>
    match Pattern.ofText? p true with
    | some q => Except.ok q
    | none => Except.error (RulesError.invalidPattern p)
  return ⟨literals, patterns⟩

/-- The scrubber of the built-in patterns alone. -/
def Scrubber.builtin : Scrubber := ⟨[], []⟩

/-- Repeat a step until it changes nothing, at most `steps` times. The bound is there for the
recursion; for the steps of a scrubber it is chosen so that it is never reached. -/
def settle {α : Type} [DecidableEq α] (step : α → α) : (steps : Nat) → α → α
  | 0, x => x
  | steps + 1, x => if step x = x then x else settle step steps (step x)

namespace Scrubber

/-- The patterns whose matches are removed, in order. What an earlier pattern removes is not there
any more for a later one, and what was around it may match anew. -/
def removed (s : Scrubber) : List Pattern :=
  [studentId, email] ++ s.literals.map literalAnyCase ++ s.patterns ++ boilerplate

/-- One round: remove all patterns in order, shorten runs of blank lines, trim. All matches of a
pattern are removed before the next pattern is looked for. -/
def scrubOnce (s : Scrubber) (cs : List Char) : List Char :=
  let cs := s.removed.foldl (fun cs p => p.replaceAll [] cs) cs
  Text.trim (blankLineRun.replaceAll ['\n', '\n'] cs)

/-- Scrub until nothing changes. Every round that changes a text makes it shorter. -/
def scrubChars (s : Scrubber) (cs : List Char) : List Char :=
  settle s.scrubOnce (cs.length + 1) cs

def scrub (s : Scrubber) (text : String) : String := String.ofList (s.scrubChars text.toList)

/-- Scrub a value that is a text; any other value stays. -/
def scrubValue (s : Scrubber) (v : Json.Value) : Json.Value := v.mapText s.scrub

end Scrubber

/-- Whether the title of a content section is the header of a module. -/
def isHeaderTitle (title : String) : Bool := headerTitle.occursIn title.toList

end Prospectus.Scrub
