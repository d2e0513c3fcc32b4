import Prospectus.Text.Pieces

/-!
# Table rows

A captured row of the module table holds facts about a module, then the list of its students. The
facts are the parts before that list, without empty parts and without a few kinds of parts.
-/

namespace Prospectus.Scrub

open Text

/-- What stands between two parts. -/
def partSeparator : List Char := [' ', '|', ' ']

/-- Whether a part begins the list of students: `Code:`, or six ASCII digits, after a colon at
most. -/
def startsListing (part : List Char) : Bool :=
  let p := trimStart part
  let p := trimStart ((afterLead? [':'] p).getD p)
  startsWith p "Code:".toList || (p.take 6).countP Char.isDigit == 6

/-- Whether a part is kept: it is not empty and names neither the organiser nor the target size
nor a sequence. A sequence is named at the front of the part, the other two anywhere in it. -/
def isFact (part : List Char) : Bool :=
  !(part.isEmpty || holds "Module Organiser".toList part || holds "Actual (Target)".toList part ||
    startsWith part "Seq:".toList)

def facts (row : List Char) : List (List Char) :=
  (((splitOn partSeparator row).map trim).takeWhile fun p => !startsListing p).filter isFact

/-- The row with nothing but the facts, which are put together with the same separator that the row
was cut at. A row without facts becomes empty. -/
def cleanRow (row : List Char) : List Char := joinWith partSeparator (facts row)

def cleanTableInfo (text : String) : String := String.ofList (cleanRow text.toList)

end Prospectus.Scrub
