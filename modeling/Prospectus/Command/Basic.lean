import Prospectus.Command.Words
import Prospectus.Store.Path

/-!
# Commands

What can be asked on the command line: to rebuild the catalogue from the snapshots, to clean the
documents in place, to answer which modules run for an entry year, and to show the merged settings
with their digest.
-/

namespace Prospectus

open Store (Path)

/-- A command with its arguments. The layers of settings are listed the lowest one first. -/
inductive Command
  | rebuild (layers : List Path) (directory out : Option Path)
  | clean (layers : List Path) (directory : Option Path)
  | available (layers : List Path) (catalog : Path) (entryYear : Int) (studyYear : Nat)
    (cycleLength : Option Nat)
  | showSettings (layers : List Path)
  deriving DecidableEq

namespace Command

/-- A path on the command line, which may not be empty. -/
def path? (word : String) : Option Path := if word.isEmpty then none else some ⟨word⟩

/-- A calendar year, which has 32 bits with a sign. -/
def year? (word : String) : Option Int := Argument.integerWithin? (-0x80000000) 0x7FFFFFFF word

/-- A number of years, which has 32 bits without a sign. -/
def count? (word : String) : Option Nat :=
  (Argument.integerWithin? 0 0xFFFFFFFF word).map Int.toNat

/-- The value of an option that may be given once, read by `f`. -/
def option? {α : Type} (f : String → Option α) (name : String) (xs : List Argument) :
    Option (Option α) := do
  match ← Argument.atMostOne? name xs with
  | none => return none
  | some word => return some (← f word)

/-- The value of an option that has to be given once, read by `f`. -/
def required? {α : Type} (f : String → Option α) (name : String) (xs : List Argument) :
    Option α := do
  ← option? f name xs

/-- The options and the operands of some words; there may be no operands. -/
def options? (names words : List String) : Option (List Argument) := do
  let xs ← Argument.ofWords? names words
  if (Argument.operands xs).isEmpty then some xs else none

def layers? (xs : List Argument) : Option (List Path) := (Argument.values "config" xs).mapM path?

/-- The command of a command line; none if the line makes no sense. -/
def ofWords? : List String → Option Command
  | "rebuild" :: words => do
    let xs ← options? ["config", "data-dir", "out"] words
    return rebuild (← layers? xs) (← option? path? "data-dir" xs) (← option? path? "out" xs)
  | "clean" :: words => do
    let xs ← options? ["config", "data-dir"] words
    return clean (← layers? xs) (← option? path? "data-dir" xs)
  | "available" :: words => do
    let xs ← options? ["catalog", "entry-year", "study-year", "cycle-length", "config"] words
    return available (← layers? xs) (← required? path? "catalog" xs)
      (← required? year? "entry-year" xs) (← required? count? "study-year" xs)
      (← option? count? "cycle-length" xs)
  | "config-hash" :: words => do
    let layers ← (Argument.operands (← Argument.ofWords? [] words)).mapM path?
    if layers.isEmpty then none else some (showSettings layers)
  | _ => none

end Command

end Prospectus
