import Prospectus.Json.Basic

/-!
# Number literals

The parts of a number literal and the number it stands for. The digits are gathered into 64 bits:
digits of the whole part that no longer fit count as powers of ten, and from the first digit of
the fraction that no longer fits all further ones are dropped. The gathered digits are rounded to
a double, which is then multiplied or divided by the double of the power of ten.
-/

namespace Prospectus

/-- The parts of a literal: its sign, the digits before and after the point, and the exponent with
its sign. Digits are listed in reading order. -/
structure Literal where
  negative : Bool
  whole : List Nat
  fraction : Option (List Nat)
  exponent : Option (Bool × List Nat)
  deriving DecidableEq

namespace Literal

/-- The number that digits write in base ten. -/
def valueOf (digits : List Nat) : Nat := digits.foldl (fun n d => 10 * n + d) 0

/-- Append digits to `n` as long as the result has 64 bits: the result and the digits left. -/
def gather (n : Nat) : List Nat → Nat × List Nat
  | [] => (n, [])
  | d :: ds => if 10 * n + d < 0x10000000000000000 then gather (10 * n + d) ds else (n, d :: ds)

/-- The double of a power of ten; none from `10 ^ 309` on. -/
def powerOfTen? (k : Nat) : Option Binary64 := Binary64.nearest false (Nat.pow 10 k) 1

/-- `x * 10 ^ e` with a rounding after each step: powers beyond `10 ^ 308` are applied in several
divisions, and none is applied to zero. Three divisions take every 64-bit number to zero. -/
def timesPower? : (steps : Nat) → Binary64 → Int → Option Binary64
  | 0, x, _ => some x
  | steps + 1, x, e =>
    if e.natAbs ≤ 308 then
      (powerOfTen? e.natAbs).bind fun p => if e ≥ 0 then x.mul? p else x.div? p
    else if x.isZero then some x
    else if e ≥ 0 then none
    else (powerOfTen? 308).bind fun p => (x.div? p).bind fun y => timesPower? steps y (e + 308)

/-- The double `± significand * 10 ^ e`; none if it is too large. -/
def double? (negative : Bool) (significand : Nat) (e : Int) : Option Binary64 :=
  (Binary64.ofNat? significand).bind fun x =>
    (timesPower? 4 x e).map fun y => y.withSign negative

/-- The number that a literal stands for; none if it is too large. A literal of digits alone is
an integer if it fits 64 bits, except for `-0`. -/
def number? (l : Literal) : Option Number :=
  let (n, left) := gather 0 l.whole
  -- digits beyond 64 bits only count as places, those after the point not even as that
  let (m, dropped) := gather n (l.fraction.getD [])
  let places := (l.fraction.getD []).length - dropped.length
  let e : Int := match l.exponent with
    | none => 0
    | some (negative, digits) =>
      if negative then -(valueOf digits : Int) else (valueOf digits : Int)
  let asInteger : Option Number :=
    if l.fraction.isSome || l.exponent.isSome || !left.isEmpty then none
    -- `-0` is a double, since integers have no negative zero
    else if l.negative && n == 0 then none
    else Number.ofInt? (if l.negative then -(n : Int) else (n : Int))
  match asInteger with
  | some number => some number
  | none => (double? l.negative m ((left.length : Int) - (places : Int) + e)).map .real

end Literal

end Prospectus
