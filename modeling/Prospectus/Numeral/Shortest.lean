import Prospectus.Numeral.Binary64

/-!
# The shortest decimal of a double

The fewest digits that read back as the same double, and of those the nearest to it. The decimal
is found in exact arithmetic: all positions are counted in quarters of the double's last binary
place, so that the ends of the interval of numbers that round to the double are whole.
-/

namespace Prospectus.Binary64

/-- A positive decimal `digits * 10 ^ exponent`. -/
structure Decimal where
  digits : Nat
  exponent : Int
  deriving DecidableEq

/-- `n * 10 ^ e / d` as a quotient of naturals. -/
def scaleByTen (n d : Nat) (e : Int) : Nat × Nat :=
  if e ≥ 0 then (n * Nat.pow 10 e.toNat, d) else (n, d * Nat.pow 10 (-e).toNat)

/-- The place of the leading decimal digit: `e` with `10 ^ e ≤ x < 10 ^ (e + 1)`. -/
def leadingPlace (x : Binary64) : Int :=
  let (n, d) := x.ratio
  ((n * Nat.pow 10 400 / d).repr.length : Int) - 401

/-- The interval of numbers that round to `x`, in quarters of its last binary place: the lower
end, the value, the upper end, and whether the ends belong to it. -/
def interval (x : Binary64) : Nat × Nat × Nat × Bool :=
  let m := x.significand
  let low := if m == Nat.pow 2 52 && x.scale > 0 then 4 * m - 1 else 4 * m - 2
  (low, 4 * m, 4 * m + 2, m % 2 == 0)

/-- A decimal in quarters of the last binary place of `x`, as a quotient. -/
def quarters (x : Binary64) (c : Nat) (place : Int) : Nat × Nat :=
  scaleByTen (c * Nat.pow 2 1076) (Nat.pow 2 x.scale) place

/-- Whether the decimal `c * 10 ^ place` rounds to `x`. -/
def readsBack (x : Binary64) (c : Nat) (place : Int) : Bool :=
  let (low, _, high, closed) := x.interval
  let (n, d) := x.quarters c place
  if closed then low * d ≤ n && n ≤ high * d else low * d < n && n < high * d

/-- Of the multiples of `10 ^ place` on both sides of `n / d` times `10 ^ place`, the one that
passes the test; of two the nearer, of two equally near the even one. -/
def nearest? (reads : Nat → Bool) (place : Int) (n d : Nat) : Option Decimal :=
  let below := n / d
  let above := below + 1
  match reads below, reads above with
  | false, false => none
  | true, false => some ⟨below, place⟩
  | false, true => some ⟨above, place⟩
  | true, true =>
    -- both neighbours read back, so the nearer one counts
    let twice := 2 * (n % d)
    if twice < d || (twice == d && below % 2 == 0) then some ⟨below, place⟩
    else some ⟨above, place⟩

/-- The neighbour of `x` on the grid of `count` digits that reads back as `x`. -/
def onGrid? (x : Binary64) (count : Nat) : Option Decimal :=
  let place := x.leadingPlace - (count - 1 : Nat)
  let scaled := scaleByTen x.ratio.1 x.ratio.2 (-place)
  nearest? (fun c => x.readsBack c place) place scaled.1 scaled.2

/-- Move trailing zeros from the digits into the exponent. -/
def dropZeros : (fuel : Nat) → Decimal → Decimal
  | 0, x => x
  | fuel + 1, x =>
    if x.digits % 10 == 0 && x.digits > 0 then dropZeros fuel ⟨x.digits / 10, x.exponent + 1⟩
    else x

/-- The decimal with the fewest digits that reads back as `x`, which is not zero. Seventeen
digits always suffice. -/
def shortest (x : Binary64) : Decimal :=
  dropZeros 20 (((List.range 17).findSome? fun i => x.onGrid? (i + 1)).getD ⟨0, 0⟩)

/-- Digits with the point and the exponent of the output format: plain when the leading place is
from -5 to 15, with a fraction in every case; otherwise scientific with a signed exponent. -/
def decimalText (x : Decimal) : String :=
  let digits := x.digits.repr.toList
  let count : Int := digits.length
  let point := count + x.exponent
  let zeros (n : Int) := List.replicate n.toNat '0'
  String.ofList <|
    if -5 < point && point ≤ 16 then
      if x.exponent ≥ 0 then digits ++ zeros x.exponent ++ ['.', '0']
      else if point > 0 then digits.take point.toNat ++ '.' :: digits.drop point.toNat
      else '0' :: '.' :: (zeros (-point) ++ digits)
    else
      let e := point - 1
      let sign := if e < 0 then '-' else '+'
      let mantissa := match digits with
        | [] => []
        | [d] => [d]
        | d :: ds => d :: '.' :: ds
      mantissa ++ 'e' :: sign :: e.natAbs.repr.toList

def text (x : Binary64) : String :=
  let magnitude := if x.isZero then "0.0" else decimalText x.shortest
  if x.negative then "-" ++ magnitude else magnitude

end Prospectus.Binary64
