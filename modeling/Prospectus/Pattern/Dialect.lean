import Prospectus.Pattern.Written

/-!
# Dialects of patterns

The text of a pattern does not settle all that is meant by it. Which characters have a property that
is named between `\p` and a closing brace is a matter of tables, and these grow with every version
of the character set. How large a pattern may be is a matter of the machine that runs it. A
`Dialect` says both; all else about patterns is the same in every dialect, so what is proved about
patterns, scrubbers and rebuilds is proved for all of them.

Names of properties are compared loosely: in any case, with or without separators and a leading `is`
(`looseName`). A dialect is asked about loose names only.

The dialect that is used where no other is at hand knows the general categories and the property
White_Space, and it counts roughly how much room a pattern takes.
-/

namespace Prospectus.Pattern

/-- What the reading of patterns takes from its surroundings. -/
class Dialect where
  /-- The characters that have a property, by its loose name and that of its value if one is given;
  none if there is no such property. -/
  property? (name : String) (value? : Option String) : Option CharClass
  /-- Whether a pattern is small enough to be used, with its repetitions written out. -/
  fits (caseInsensitive : Bool) (a : Written) : Bool

/-! ### Loose names -/

/-- What is left of a name once a leading `is` in any case is dropped, if there is one. -/
def afterIs? : List Char → Option (List Char)
  | i :: s :: rest => if i.toLower = 'i' ∧ s.toLower = 's' then some rest else none
  | _ => none

/-- A name in lower case, without separators and without characters that are not ASCII. -/
def squeezed (cs : List Char) : List Char :=
  (cs.filter fun c => c.toNat < 0x80 && !(c == ' ' || c == '_' || c == '-')).map Char.toLower

/-- The form in which names of properties are compared. The `is` of a name that is nothing but `isc`
belongs to it. -/
def looseName (cs : List Char) : String :=
  match afterIs? cs with
  | none => String.ofList (squeezed cs)
  | some rest => if squeezed rest = ['c'] then "isc" else String.ofList (squeezed rest)

/-- Only an `is` right at the start is dropped. -/
example : looseName "Is_Lu".toList = "lu" ∧ looseName "_is_Lu".toList = "islu" ∧
    looseName "Is-C".toList = "isc" ∧ looseName "Upper Case Letter".toList = "uppercaseletter" := by
  decide

/-- The characters that have a property. -/
def Property.toClass? [Dialect] (p : Property) : Option CharClass :=
  Dialect.property? (looseName p.name) (p.value?.map looseName)

/-! ### General categories -/

open Text.Category in
/-- General categories and groups of them by their loose names. There is no character in the
category of surrogates, and so no name for it. -/
def categoryNames : List (List String × List Text.Category) :=
  [(["lu", "uppercaseletter"], [uppercaseLetter]),
    (["ll", "lowercaseletter"], [lowercaseLetter]),
    (["lt", "titlecaseletter"], [titlecaseLetter]),
    (["lc", "casedletter"], [uppercaseLetter, lowercaseLetter, titlecaseLetter]),
    (["lm", "modifierletter"], [modifierLetter]),
    (["lo", "otherletter"], [otherLetter]),
    (["l", "letter"], [uppercaseLetter, lowercaseLetter, titlecaseLetter, modifierLetter,
      otherLetter]),
    (["mn", "nonspacingmark"], [nonspacingMark]),
    (["mc", "spacingmark"], [spacingMark]),
    (["me", "enclosingmark"], [enclosingMark]),
    (["m", "mark", "combiningmark"], [nonspacingMark, spacingMark, enclosingMark]),
    (["nd", "decimalnumber", "digit"], [decimalNumber]),
    (["nl", "letternumber"], [letterNumber]),
    (["no", "othernumber"], [otherNumber]),
    (["n", "number"], [decimalNumber, letterNumber, otherNumber]),
    (["pc", "connectorpunctuation"], [connectorPunctuation]),
    (["pd", "dashpunctuation"], [dashPunctuation]),
    (["ps", "openpunctuation"], [openPunctuation]),
    (["pe", "closepunctuation"], [closePunctuation]),
    (["pi", "initialpunctuation"], [initialPunctuation]),
    (["pf", "finalpunctuation"], [finalPunctuation]),
    (["po", "otherpunctuation"], [otherPunctuation]),
    (["p", "punctuation", "punct"], [connectorPunctuation, dashPunctuation, openPunctuation,
      closePunctuation, initialPunctuation, finalPunctuation, otherPunctuation]),
    (["sm", "mathsymbol"], [mathSymbol]),
    (["sc", "currencysymbol"], [currencySymbol]),
    (["sk", "modifiersymbol"], [modifierSymbol]),
    (["so", "othersymbol"], [otherSymbol]),
    (["s", "symbol"], [mathSymbol, currencySymbol, modifierSymbol, otherSymbol]),
    (["zs", "spaceseparator"], [spaceSeparator]),
    (["zl", "lineseparator"], [lineSeparator]),
    (["zp", "paragraphseparator"], [paragraphSeparator]),
    (["z", "separator"], [spaceSeparator, lineSeparator, paragraphSeparator]),
    (["cc", "control", "cntrl"], [control]),
    (["cf", "format"], [format]),
    (["co", "privateuse"], [privateUse]),
    (["cn", "unassigned"], [unassigned]),
    (["c", "other"], [control, format, privateUse, unassigned])]

/-- The class of a general category. Three more names stand beside those of the categories. -/
def categoryClass? (name : String) : Option CharClass :=
  if name = "any" then some .any
  else if name = "assigned" then some (.not (.category .unassigned))
  else if name = "ascii" then some (.range 0 0x7F)
  else (categoryNames.find? fun e => e.1.contains name).map fun e => .oneOf (e.2.map .category)

/-- The properties of a dialect that knows general categories and White_Space. -/
def commonProperty? (name : String) : (value? : Option String) → Option CharClass
  | none =>
    if ["whitespace", "space", "wspace"].contains name then some .blank else categoryClass? name
  | some value => if ["gc", "generalcategory"].contains name then categoryClass? value else none

/-! ### Room -/

/-- The room, in bytes, that a class takes up, roughly. -/
def NamedClass.weight : NamedClass → Nat
  | decimal => 4000
  | blank => 700
  | word | property _ => 50000
  | ascii _ => 40

/-- The room that a pattern takes up once its repetitions are written out, roughly. -/
def Written.weight : Written → Nat
  | .empty | .flags _ => 0
  | .literal _ _ | .look _ => 40
  | .dot => 700
  | .named n _ => n.weight
  | .bracket _ _ => 700
  | .repeated a least most _ => (max 1 (most.getD (least + 1))) * (a.weight + 40)
  | .group captures _ a => a.weight + if captures then 80 else 0
  | .cat a b => a.weight + b.weight
  | .alt a b => a.weight + b.weight + 40

/-- The greatest room that a pattern may take up. -/
def maxWeight : Nat := 10 * 0x100000

/-- The dialect that is used where no other is at hand. -/
instance : Dialect where
  property? := commonProperty?
  fits _ a := decide (a.weight ≤ maxWeight)

end Prospectus.Pattern
