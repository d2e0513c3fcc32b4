import Prospectus.Json.Basic

/-!
# Written JSON

A tree as text, either on one line without spaces or with one item a line, two spaces deeper at
each level. In a text only the quote, the backslash and the characters below the space are
escaped.
-/

namespace Prospectus.Json

/-- How a tree is laid out. -/
inductive Layout
  | compact
  | indented
  deriving DecidableEq

namespace Layout

/-- What stands before an item at a level and before the closing bracket. -/
def lineBreak (layout : Layout) (level : Nat) : List Char :=
  match layout with
  | .compact => []
  | .indented => '\n' :: List.replicate (2 * level) ' '

/-- What stands between a name and its value. -/
def colon : Layout → List Char
  | .compact => [':']
  | .indented => [':', ' ']

end Layout

def hexDigit (n : Nat) : Char := Char.ofNat (if n < 10 then 48 + n else 87 + n)

/-- A character inside a quoted text. -/
def escapeChar (c : Char) : List Char :=
  if c = '"' then ['\\', '"']
  else if c = '\\' then ['\\', '\\']
  else if c = '\n' then ['\\', 'n']
  else if c = '\r' then ['\\', 'r']
  else if c = '\t' then ['\\', 't']
  else if c = '\x08' then ['\\', 'b']
  else if c = '\x0c' then ['\\', 'f']
  else if c.toNat < 0x20 then
    ['\\', 'u', '0', '0', hexDigit (c.toNat / 16), hexDigit (c.toNat % 16)]
  else [c]

def quote (s : String) : List Char := '"' :: (s.toList.flatMap escapeChar ++ ['"'])

mutual

/-- The characters of a tree that stands at a level. -/
def write (layout : Layout) (level : Nat) : Json → List Char
  | .null => ['n', 'u', 'l', 'l']
  | .bool true => ['t', 'r', 'u', 'e']
  | .bool false => ['f', 'a', 'l', 's', 'e']
  | .num n => n.text.toList
  | .str s => quote s
  | .arr [] => ['[', ']']
  | .arr (x :: xs) =>
    '[' :: (layout.lineBreak (level + 1) ++ (write layout (level + 1) x ++
      (writeItems layout level xs ++ [']'])))
  | .obj [] => ['{', '}']
  | .obj ((k, x) :: ms) =>
    '{' :: (layout.lineBreak (level + 1) ++ (quote k ++ (layout.colon ++
      (write layout (level + 1) x ++ (writeMembers layout level ms ++ ['}'])))))

/-- The items after the first one, and the break before the closing bracket. -/
def writeItems (layout : Layout) (level : Nat) : List Json → List Char
  | [] => layout.lineBreak level
  | x :: xs =>
    ',' :: (layout.lineBreak (level + 1) ++
      (write layout (level + 1) x ++ writeItems layout level xs))

/-- The members after the first one, and the break before the closing bracket. -/
def writeMembers (layout : Layout) (level : Nat) : List (String × Json) → List Char
  | [] => layout.lineBreak level
  | (k, x) :: ms =>
    ',' :: (layout.lineBreak (level + 1) ++ (quote k ++ (layout.colon ++
      (write layout (level + 1) x ++ writeMembers layout level ms))))

end

/-- The text of a tree on one line. -/
def compact (j : Json) : String := String.ofList (write .compact 0 j)

/-- The text of a tree with one item a line. -/
def indented (j : Json) : String := String.ofList (write .indented 0 j)

end Prospectus.Json
