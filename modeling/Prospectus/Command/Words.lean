import Prospectus.Text.Pieces

/-!
# Words of a command line

The words that follow the name of a command are options with a value, such as `--out a` or
`--out=a`, and operands. A word that begins with a hyphen is no operand and no value of the option
before it, unless it is the hyphen alone; after a double hyphen all words are operands.
-/

namespace Prospectus.Command

/-- An option or an operand. -/
inductive Argument
  | option (name value : String)
  | operand (value : String)
  deriving DecidableEq

namespace Argument

/-- Whether a word begins with a hyphen and is not the hyphen alone. -/
def isMarked (word : String) : Bool :=
  Text.startsWith word.toList ['-'] && word != "-"

/-- The name of the option that a word begins, and the value if it is in the same word. -/
def optionOf? (word : String) : Option (String × Option String) :=
  (Text.afterLead? ['-', '-'] word.toList).map fun cs =>
    let name := cs.takeWhile (· != '=')
    match cs.drop name.length with
    | [] => (String.ofList name, none)
    | _ :: value => (String.ofList name, some (String.ofList value))

/-- The arguments of words, given the names of the options; none if the words make no sense.
`pending` is the option that waits for its value. -/
def readWords? (options : List String) : (pending : Option String) → List String →
    Option (List Argument)
  | none, [] => some []
  | some _, [] => none
  | some name, word :: rest =>
    if isMarked word then none else (readWords? options none rest).map (option name word :: ·)
  | none, word :: rest =>
    if word = "--" then some (rest.map operand)
    else match optionOf? word with
      | some (name, value) =>
        if !options.contains name then none
        else match value with
          | some value => (readWords? options none rest).map (option name value :: ·)
          | none => readWords? options (some name) rest
      | none =>
        if isMarked word then none
        else (readWords? options none rest).map (operand word :: ·)

/-- The arguments of words, given the names of the options; none if the words make no sense. -/
def ofWords? (options words : List String) : Option (List Argument) := readWords? options none words

def operands (xs : List Argument) : List String :=
  xs.filterMap fun
    | operand value => some value
    | option _ _ => none

def values (name : String) (xs : List Argument) : List String :=
  xs.filterMap fun
    | option n value => if n = name then some value else none
    | operand _ => none

/-- The value of an option that may be given once; none if it is given more often. -/
def atMostOne? (name : String) (xs : List Argument) : Option (Option String) :=
  match values name xs with
  | [] => some none
  | [value] => some (some value)
  | _ => none

/-- The integer that a word writes: digits, with a sign in front or without. -/
def integer? (word : String) : Option Int :=
  let magnitude? (cs : List Char) : Option Nat :=
    if cs.isEmpty || !cs.all Char.isDigit then none
    else some (cs.foldl (fun n c => 10 * n + (c.toNat - '0'.toNat)) 0)
  match word.toList with
  | '-' :: cs => (magnitude? cs).map fun n => -(n : Int)
  | '+' :: cs => (magnitude? cs).map fun n => (n : Int)
  | cs => (magnitude? cs).map fun n => (n : Int)

/-- The integer that a word writes, if it lies between two bounds. -/
def integerWithin? (low high : Int) (word : String) : Option Int :=
  (integer? word).bind fun n => if low ≤ n ∧ n ≤ high then some n else none

end Argument

end Prospectus.Command
