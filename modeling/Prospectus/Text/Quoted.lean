import Prospectus.Text.Category
import Prospectus.Text.Pieces

/-!
# Quoted texts

A text in quotes for a reader of messages. The quote, the backslash and a few control characters
have escapes of one letter; other characters that cannot be shown, and those that would join the
quote before them, are written by their number.
-/

namespace Prospectus.Text

/-- The digits of a number in base sixteen. -/
def hexDigits (n : Nat) : List Char := Nat.toDigits 16 n

/-- A character inside quotes. -/
def escapeChar (c : Char) : List Char :=
  if c = '\x00' then ['\\', '0']
  else if c = '\t' then ['\\', 't']
  else if c = '\n' then ['\\', 'n']
  else if c = '\r' then ['\\', 'r']
  else if c = '"' then ['\\', '"']
  else if c = '\\' then ['\\', '\\']
  else if isExtender c || !isPrintable c then '\\' :: 'u' :: '{' :: (hexDigits c.toNat ++ ['}'])
  else [c]

def quoted (s : String) : String :=
  String.ofList ('"' :: (s.toList.flatMap escapeChar ++ ['"']))

/-- A list of texts in quotes. -/
def quotedList (xs : List String) : String := "[" ++ join ", " (xs.map quoted) ++ "]"

end Prospectus.Text
