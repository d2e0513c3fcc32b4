/-!
# Finite binary64 numbers

A finite double is a sign, a significand below `2^53` and a power of two. `nearest` rounds a
quotient of naturals to the closest such number, a tie going to the even significand; the
arithmetic of doubles is exact arithmetic followed by that rounding.
-/

namespace Prospectus

/-- Bounds that give each magnitude one form: the significand has 53 binary digits unless the
power of two is the least one. -/
def CanonicalMagnitude (significand scale : Nat) : Prop :=
  significand < Nat.pow 2 53 ∧ scale ≤ 2045 ∧ (Nat.pow 2 52 ≤ significand ∨ scale = 0)

instance (m s : Nat) : Decidable (CanonicalMagnitude m s) :=
  inferInstanceAs (Decidable (_ ∧ _ ∧ _))

/-- The number `± significand * 2 ^ (scale - 1074)`. -/
structure Binary64 where
  negative : Bool
  significand : Nat
  scale : Nat
  canonical : CanonicalMagnitude significand scale
  deriving DecidableEq

namespace Binary64

def zero (negative : Bool) : Binary64 := ⟨negative, 0, 0, by decide⟩

/-- The quotient `n / d` to the nearest natural number, a half going to the even neighbour. -/
def roundQuotient (n d : Nat) : Nat :=
  let q := n / d
  let r := n % d
  if 2 * r > d || (2 * r == d && q % 2 == 1) then q + 1 else q

/-- The double nearest to `num / den`; none if it is too large to be finite. -/
def nearest (negative : Bool) (num den : Nat) : Option Binary64 :=
  let n := num * Nat.pow 2 1074
  let scale := (n / den).log2 - 52
  let m := roundQuotient n (den * Nat.pow 2 scale)
  let (m, scale) := if m = Nat.pow 2 53 then (Nat.pow 2 52, scale + 1) else (m, scale)
  if h : CanonicalMagnitude m scale then some ⟨negative, m, scale, h⟩ else none

def ofNat? (n : Nat) : Option Binary64 := nearest false n 1

/-- The magnitude as a quotient of naturals. -/
def ratio (x : Binary64) : Nat × Nat := (x.significand * Nat.pow 2 x.scale, Nat.pow 2 1074)

def isZero (x : Binary64) : Bool := x.significand == 0

/-- The product, rounded; none if it is too large. -/
def mul? (x y : Binary64) : Option Binary64 :=
  nearest (x.negative != y.negative) (x.ratio.1 * y.ratio.1) (x.ratio.2 * y.ratio.2)

/-- The quotient, rounded; none if it is too large or `y` is zero. -/
def div? (x y : Binary64) : Option Binary64 :=
  if y.isZero then none
  else nearest (x.negative != y.negative) (x.ratio.1 * y.ratio.2) (x.ratio.2 * y.ratio.1)

def withSign (x : Binary64) (negative : Bool) : Binary64 := { x with negative }

/-- The whole value of a double that has no fraction; none for the others. -/
def toInt? (x : Binary64) : Option Int :=
  let (n, d) := x.ratio
  if n % d == 0 then some (if x.negative then -((n / d : Nat) : Int) else ((n / d : Nat) : Int))
  else none

end Binary64

end Prospectus
