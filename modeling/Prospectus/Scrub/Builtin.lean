import Prospectus.Pattern.Search

/-!
# Built-in patterns

Personal data that has a form of its own, the texts of the page around a module, and the titles of
content sections that repeat the header of a module.
-/

namespace Prospectus.Scrub

open Pattern

/-! ### Building blocks -/

/-- Any number of blank characters. -/
def blanks : Pattern := zeroOrMore (char .blank) true

def digit : Pattern := char .decimal

def newline : Pattern := exactly '\n'

def notNewline : Pattern := char (.not (.one '\n'))

def capital : CharClass := .range 0x41 0x5A

def letter : CharClass := .or capital (.range 0x61 0x7A)

def letterOrDigit : CharClass := .or letter (.range 0x30 0x39)

/-- A text in any case. -/
def phrase (text : String) : Pattern := literalAnyCase text.toList

/-- A full stop, or none. -/
def fullStop : Pattern := optionally (exactly '.') true

/-! ### Personal data -/

/-- A student number such as `100123456/1`, with a colon and blank characters before it. -/
def studentId : Pattern :=
  sequence [optionally (exactly ':') true, blanks, times digit 9, exactly '/', digit]

def email : Pattern :=
  sequence [
    oneOrMore (char (.oneOf (letterOrDigit :: ['.', '_', '%', '+', '-'].map .one))) true,
    exactly '@',
    oneOrMore (char (.oneOf (letterOrDigit :: ['.', '-'].map .one))) true,
    exactly '.',
    atLeast (char letter) 2 true]

/-! ### Texts of the page -/

/-- The prompt for more details. -/
def detailsPrompt : Pattern := sequence [phrase "Email me the additional details", fullStop]

/-- Texts that the page puts around a module, in the order in which they are removed. -/
def boilerplate : List Pattern :=
  [ sequence [phrase "Additional Module Details", blanks, optionally newline true, blanks,
      detailsPrompt],
    detailsPrompt,
    sequence [phrase "Email me exported data updated!!!", zeroOrMore (char .any) true,
      look .textEnd],
    sequence [phrase "Click here to create an email to students on this module", fullStop],
    sequence [phrase "Total Enrolled Students:", blanks, oneOrMore digit true],
    sequence [phrase "Logged In:", zeroOrMore notNewline false,
      alt (phrase "Logout)") (alt newline (look .textEnd))],
    sequence [literal "Pick an account".toList, zeroOrMore (char .any) false,
      literal "Signed in".toList] ]

/-- Three line feeds or more, blank characters between them. -/
def blankLineRun : Pattern :=
  sequence [newline, blanks, newline, blanks, oneOrMore newline true]

/-- The title `CODE - DEPARTMENT - TITLE` of a content section. -/
def headerTitle : Pattern :=
  sequence [look .textStart, between (char capital) 3 5 true, optionally (exactly '-') true,
    times digit 4, optionally (char capital) true, blanks, exactly '-', blanks,
    between (char capital) 2 4 true, blanks, exactly '-', blanks, oneOrMore notNewline true,
    look .textEnd]

end Prospectus.Scrub
