import Prospectus.Text.Blank
import Prospectus.Text.CaseTable
import Prospectus.Text.CategoryTable

/-!
# Classes of characters

Classes that follow from the general category of a character, and the variants of a character
under simple case folding.
-/

namespace Prospectus.Text

/-- The block that holds a code point, between two positions of the table. Each step halves the
distance of the positions. -/
def findBlock? (table : Array CategoryBlock) (n : Nat) :
    (steps low high : Nat) → Option CategoryBlock
  | 0, _, _ => none
  | steps + 1, low, high =>
    if low ≥ high then none
    else
      let middle := (low + high) / 2
      match table[middle]? with
      | none => none
      | some b =>
        if n < b.first then findBlock? table n steps low middle
        else if b.last < n then findBlock? table n steps (middle + 1) high
        else some b

def category (c : Char) : Category :=
  let n := c.toNat
  match findBlock? CategoryBlock.table n 16 0 CategoryBlock.table.size with
  | none => .unassigned
  | some b => if (n - b.first) % 2 = 0 then b.even else b.odd

namespace Category

/-- Letters of any kind. -/
def isLetter : Category → Bool
  | uppercaseLetter | lowercaseLetter | titlecaseLetter | modifierLetter | otherLetter => true
  | _ => false

/-- Marks that belong to the character before them. -/
def isMark : Category → Bool
  | nonspacingMark | spacingMark | enclosingMark => true
  | _ => false

/-- Characters that leave something to see on a line, the space aside. -/
def isVisible : Category → Bool
  | control | format | surrogate | privateUse | unassigned | lineSeparator | paragraphSeparator
  | spaceSeparator => false
  | _ => true

end Category

/-- Whether a code point lies in one of a list of ranges. -/
def inRanges (ranges : List (Nat × Nat)) (n : Nat) : Bool :=
  ranges.any fun r => r.1 ≤ n && n ≤ r.2

/-- Letters of circled and squared shape, which count as alphabetic. -/
def shapedLetters : List (Nat × Nat) :=
  [(0x24B6, 0x24E9), (0x1F130, 0x1F149), (0x1F150, 0x1F169), (0x1F170, 0x1F189)]

/-- Characters of words: letters, marks, decimal digits, letter numbers, connectors such as the
underscore, and the two joiners. -/
def isWord (c : Char) : Bool :=
  if c.toNat < 0x80 then c.isAlphanum || c == '_'
  else
    let k := category c
    k.isLetter || k.isMark || k == .decimalNumber || k == .letterNumber ||
      k == .connectorPunctuation || c.toNat == 0x200C || c.toNat == 0x200D ||
      inRanges shapedLetters c.toNat

/-- Decimal digits of any script. -/
def isDecimal (c : Char) : Bool :=
  if c.toNat < 0x80 then c.isDigit else category c == .decimalNumber

/-- Ranges that hold the marks that count as letters, such as vowel signs, and no other marks. -/
def alphabeticMarks : List (Nat × Nat) :=
  [(0x345, 0x345), (0x5B0, 0x657), (0x659, 0x6DC), (0x6E1, 0x6E8), (0x6ED, 0x73F), (0x7A6, 0x7B0),
    (0x816, 0x817), (0x81B, 0x82C), (0x8D4, 0x8DF), (0x8E3, 0x8E9), (0x8F0, 0x93B), (0x93E, 0x94C),
    (0x94E, 0x94F), (0x955, 0x983), (0x9BE, 0x9CC), (0x9D7, 0x9E3), (0xA01, 0xA03), (0xA3E, 0xA4C),
    (0xA51, 0xA83), (0xABE, 0xACC), (0xAE2, 0xAFC), (0xB01, 0xB03), (0xB3E, 0xB4C), (0xB56, 0xBCC),
    (0xBD7, 0xC04), (0xC3E, 0xC4C), (0xC55, 0xC83), (0xCBE, 0xCCC), (0xCD5, 0xD03), (0xD3E, 0xD4C),
    (0xD57, 0xD83), (0xDCF, 0xE3A), (0xE4D, 0xE4D), (0xEB1, 0xEB9), (0xEBB, 0xEBC), (0xECD, 0xECD),
    (0xF71, 0xF83), (0xF8D, 0xFBC), (0x102B, 0x1036), (0x1038, 0x1038), (0x103B, 0x109D),
    (0x1712, 0x1713), (0x1732, 0x1733), (0x1752, 0x1773), (0x17B6, 0x17C8), (0x1885, 0x1938),
    (0x1A17, 0x1A5E), (0x1A61, 0x1A74), (0x1ABF, 0x1AC0), (0x1ACC, 0x1B04), (0x1B35, 0x1B43),
    (0x1B80, 0x1BA9), (0x1BAC, 0x1BAD), (0x1BE7, 0x1BF1), (0x1C24, 0x1C36), (0x1DE7, 0x1DF4),
    (0x2DE0, 0x2DFF), (0xA674, 0xA67B), (0xA69E, 0xA69F), (0xA802, 0xA802), (0xA80B, 0xA827),
    (0xA880, 0xA8C3), (0xA8C5, 0xA8C5), (0xA8FF, 0xA92A), (0xA947, 0xA952), (0xA980, 0xA983),
    (0xA9B4, 0xA9BF), (0xA9E5, 0xAABE), (0xAAEB, 0xAAF5), (0xABE3, 0xABEA), (0xFB1E, 0xFB1E),
    (0x10376, 0x10A0F), (0x10D24, 0x10EAC), (0x11000, 0x11045), (0x11073, 0x11074),
    (0x11080, 0x110B8), (0x110C2, 0x11132), (0x11145, 0x11146), (0x11180, 0x111BF),
    (0x111CE, 0x11234), (0x11237, 0x112E8), (0x11300, 0x11303), (0x1133E, 0x1134C),
    (0x11357, 0x11363), (0x11435, 0x11441), (0x11443, 0x11445), (0x114B0, 0x114C1),
    (0x115AF, 0x115BE), (0x115DC, 0x1163E), (0x11640, 0x116B5), (0x1171D, 0x1172A),
    (0x1182C, 0x11838), (0x11930, 0x1193C), (0x11940, 0x11942), (0x119D1, 0x119DF),
    (0x119E4, 0x11A0A), (0x11A35, 0x11A3E), (0x11A51, 0x11A97), (0x11C2F, 0x11C3E),
    (0x11C92, 0x11D41), (0x11D43, 0x11D43), (0x11D47, 0x11D96), (0x11EF3, 0x11F40),
    (0x16F4F, 0x16F92), (0x16FF0, 0x16FF1), (0x1BC9E, 0x1BC9E), (0x1E000, 0x1E08F),
    (0x1E947, 0x1E947)]

/-- Characters that words are spelt with: letters, letter numbers, and the marks among them that
count as letters. -/
def isAlphabetic (c : Char) : Bool :=
  if c.toNat < 0x80 then c.isAlpha
  else
    let k := category c
    k.isLetter || k == .letterNumber || inRanges shapedLetters c.toNat ||
      (k.isMark && inRanges alphabeticMarks c.toNat)

/-- Characters of numbers: digits of all scripts, letter numbers, fractions and the like. -/
def isNumeric (c : Char) : Bool :=
  if c.toNat < 0x80 then c.isDigit
  else
    let k := category c
    k == .decimalNumber || k == .letterNumber || k == .otherNumber

/-- Characters other than marks that extend the character before them. -/
def furtherExtenders : List (Nat × Nat) :=
  [(0x9BE, 0x9BE), (0x9D7, 0x9D7), (0xB3E, 0xB3E), (0xB57, 0xB57), (0xBBE, 0xBBE), (0xBD7, 0xBD7),
    (0xCC2, 0xCC2), (0xCD5, 0xCD6), (0xD3E, 0xD3E), (0xD57, 0xD57), (0xDCF, 0xDCF), (0xDDF, 0xDDF),
    (0x1B35, 0x1B35), (0x200C, 0x200C), (0x302E, 0x302F), (0xFF9E, 0xFF9F), (0x1133E, 0x1133E),
    (0x11357, 0x11357), (0x114B0, 0x114B0), (0x114BD, 0x114BD), (0x115AF, 0x115AF),
    (0x11930, 0x11930), (0x1D165, 0x1D165), (0x1D16E, 0x1D172), (0xE0020, 0xE007F)]

/-- Characters that extend the character before them. -/
def isExtender (c : Char) : Bool :=
  let k := category c
  k == .nonspacingMark || k == .enclosingMark || inRanges furtherExtenders c.toNat

/-- Characters that can be shown as they are. -/
def isPrintable (c : Char) : Bool := c == ' ' || (category c).isVisible

/-! ### Case -/

/-- The partner of a code point in a run of pairs. -/
def CaseRun.partner? (r : CaseRun) (n : Nat) : Option Nat :=
  if r.first ≤ n && n ≤ r.last && (n - r.first) % r.stride == 0 then some (n + r.distance)
  else if r.first + r.distance ≤ n && n ≤ r.last + r.distance &&
      (n - r.distance - r.first) % r.stride == 0 then some (n - r.distance)
  else none

/-- The other characters that simple case folding makes one with `c`. -/
def caseVariants (c : Char) : List Char :=
  let n := c.toNat
  if n < 0x80 && !c.isAlpha then []
  else
    match caseGroups.find? fun g => g.contains n with
    | some g => (g.filter (· != n)).map Char.ofNat
    | none =>
      match CaseRun.table.findSome? fun r => r.partner? n with
      | some m => [Char.ofNat m]
      | none => []

end Prospectus.Text
