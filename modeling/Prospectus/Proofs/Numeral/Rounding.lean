import Mathlib.Algebra.Order.Field.Power
import Mathlib.Data.Rat.Cast.Order
import Mathlib.Tactic.FieldSimp
import Mathlib.Tactic.Linarith
import Mathlib.Tactic.NormNum
import Mathlib.Tactic.Positivity
import Mathlib.Tactic.Ring
import Prospectus.Numeral.Shortest

/-! # The numbers that round to a double

`RoundsTo v x` says that a rational number lies in the interval of numbers that round to the
magnitude of `x`. A number rounds to one magnitude only (`eq_of_roundsTo`), and the shortest
decimal of a double rounds to it (`roundsTo_shortest`): seventeen digits always yield one, since
the steps of their grid are shorter than the interval.

The program that writes doubles works in natural numbers: it compares products of powers of two and
of ten. What it means by them is said in rational numbers here, with the last binary place of a
double as the unit, a quarter of it to be exact. In these units the magnitude of `x` is four times
its significand, and its interval goes from two below to two above it; where the significand is a
power of two, the neighbour below is nearer, and the interval begins one below. -/

namespace Prospectus.Binary64

variable {x y : Binary64} {v : ℚ}

/-! ### Numbers that round to a double

The test for a decimal compares natural numbers, of which `quarters` are numerator and denominator.
Divided, they are the position of the decimal, and the test comes to whether that lies between the
ends of the interval. -/

/-- Where a number stands, counted in quarters of the last binary place of `x`. In these units the
interval of numbers that round to `x` has whole ends. -/
def position (x : Binary64) (v : ℚ) : ℚ := v * 2 ^ 1076 / 2 ^ x.scale

theorem position_le (x : Binary64) {v w : ℚ} (h : v ≤ w) : x.position v ≤ x.position w :=
  div_le_div_of_nonneg_right (mul_le_mul_of_nonneg_right h (pow_pos two_pos _).le)
    (pow_pos two_pos _).le

theorem position_mul_left (x : Binary64) (c v : ℚ) : x.position (c * v) = c * x.position v := by
  rw [position, position, mul_assoc, mul_div_assoc]

/-- The number rounds to the magnitude of `x`: it lies in the interval of `x`, whose ends belong to
it if the significand is even. -/
def RoundsTo (v : ℚ) (x : Binary64) : Prop :=
  if x.significand % 2 = 0 then x.interval.1 ≤ x.position v ∧ x.position v ≤ x.interval.2.2.1
  else x.interval.1 < x.position v ∧ x.position v < x.interval.2.2.1

theorem scaleByTen_pos (n : Nat) {d : Nat} (hd : 0 < d) (e : Int) : 0 < (scaleByTen n d e).2 := by
  unfold scaleByTen
  split
  · exact hd
  · exact Nat.mul_pos hd (Nat.pow_pos (by decide))

theorem scaleByTen_eq (n d : Nat) (e : Int) :
    ((scaleByTen n d e).1 : ℚ) / (scaleByTen n d e).2 = n / d * 10 ^ e := by
  unfold scaleByTen
  split
  · next he =>
    obtain ⟨k, rfl⟩ := Int.eq_ofNat_of_zero_le he
    simp only [Int.toNat_natCast, zpow_natCast, Nat.pow_eq, Nat.cast_mul, Nat.cast_pow,
      Nat.cast_ofNat]
    ring
  · next he =>
    obtain ⟨k, rfl⟩ : ∃ k : Nat, e = -k := ⟨(-e).toNat, by omega⟩
    simp only [neg_neg, Int.toNat_natCast, zpow_neg, zpow_natCast, Nat.pow_eq, Nat.cast_mul,
      Nat.cast_pow, Nat.cast_ofNat]
    rw [div_mul_eq_div_div, div_eq_mul_inv _ ((10 : ℚ) ^ k)]

theorem quarters_eq (x : Binary64) (c : Nat) (place : Int) :
    ((x.quarters c place).1 : ℚ) / (x.quarters c place).2 = x.position (c * 10 ^ place) := by
  rw [quarters, scaleByTen_eq, position]
  simp only [Nat.pow_eq, Nat.cast_mul, Nat.cast_pow, Nat.cast_ofNat]
  rw [mul_right_comm, div_mul_eq_mul_div]

/-- The test for a decimal of some digits says just that: the number lies in the interval, the ends
of which count if the significand is even. -/
theorem readsBack_iff {c : Nat} {place : Int} :
    x.readsBack c place = true ↔ RoundsTo (c * 10 ^ place) x := by
  have hpos : 0 < (x.quarters c place).2 := scaleByTen_pos _ (Nat.pow_pos (by decide)) place
  have hpos : (0 : ℚ) < (x.quarters c place).2 := by exact_mod_cast hpos
  have htest : x.readsBack c place = if x.significand % 2 == 0 then
      decide (x.interval.1 * (x.quarters c place).2 ≤ (x.quarters c place).1) &&
        decide ((x.quarters c place).1 ≤ x.interval.2.2.1 * (x.quarters c place).2)
    else decide (x.interval.1 * (x.quarters c place).2 < (x.quarters c place).1) &&
      decide ((x.quarters c place).1 < x.interval.2.2.1 * (x.quarters c place).2) := rfl
  unfold RoundsTo
  rw [htest, ← quarters_eq, le_div_iff₀ hpos, div_le_iff₀ hpos, lt_div_iff₀ hpos, div_lt_iff₀ hpos]
  norm_cast
  by_cases heven : x.significand % 2 = 0 <;> simp [heven]

/-! ### No number rounds to two doubles

Of two magnitudes the lesser has an interval that ends where that of the greater begins, or before.
They meet if there is no double between, and then the meeting point belongs to the one with the even
significand; neighbours are not both even. The proof goes by the scales of the two: with one scale
the significands differ, and with two the greater number has the leading bit set. -/

theorem position_mul (x : Binary64) (v : ℚ) : x.position v * 2 ^ x.scale = v * 2 ^ 1076 :=
  div_mul_cancel₀ _ (pow_ne_zero _ two_ne_zero)

/-- `x` has the lesser magnitude. It is said of the two forms: the scale is smaller, or the scales
are the same and the significand is. -/
def Below (x y : Binary64) : Prop :=
  x.scale < y.scale ∨ x.scale = y.scale ∧ x.significand < y.significand

theorem interval_low (x : Binary64) : x.interval.1 =
    if x.significand = 2 ^ 52 ∧ 0 < x.scale then 4 * x.significand - 1
    else 4 * x.significand - 2 := by
  simp [interval]

/-- The interval of a double ends before that of a greater one begins. They may meet, but then the
meeting point does not belong to both. -/
theorem Below.interval_le (h : Below x y) :
    x.interval.2.2.1 * 2 ^ x.scale ≤ y.interval.1 * 2 ^ y.scale ∧
      (x.significand % 2 = 0 → y.significand % 2 = 0 →
        x.interval.2.2.1 * 2 ^ x.scale < y.interval.1 * 2 ^ y.scale) := by
  have hhigh : x.interval.2.2.1 = 4 * x.significand + 2 := rfl
  have hlow := interval_low y
  obtain ⟨hx, -, -⟩ := x.canonical
  obtain ⟨-, -, hy⟩ := y.canonical
  simp only [Nat.pow_eq, Nat.reducePow] at hx hy hlow
  rcases h with hscale | ⟨hscale, hlt⟩
  · -- the greater double has all its digits, and its places are at least twice as large
    have hlow : 2 * y.interval.1 ≥ x.interval.2.2.1 ∧
        (x.significand % 2 = 0 → 2 * y.interval.1 > x.interval.2.2.1) := by
      split at hlow <;> omega
    have hpow : 2 ^ x.scale * 2 ≤ 2 ^ y.scale := by
      rw [← Nat.pow_succ]
      exact Nat.pow_le_pow_right (by decide) hscale
    have hdouble : 2 * y.interval.1 * 2 ^ x.scale ≤ y.interval.1 * 2 ^ y.scale := by
      rw [Nat.mul_comm 2, Nat.mul_assoc, Nat.mul_comm 2]
      exact Nat.mul_le_mul_left _ hpow
    refine ⟨(Nat.mul_le_mul_right _ hlow.1).trans hdouble, fun hx _ => ?_⟩
    exact (Nat.mul_lt_mul_of_pos_right (hlow.2 hx) (Nat.two_pow_pos _)).trans_le hdouble
  · -- on one scale the significands are whole, so they are a full place apart
    have hlow : x.interval.2.2.1 ≤ y.interval.1 ∧
        (x.significand % 2 = 0 → y.significand % 2 = 0 → x.interval.2.2.1 < y.interval.1) := by
      split at hlow <;> omega
    rw [hscale]
    refine ⟨Nat.mul_le_mul_right _ hlow.1, fun hx hy => ?_⟩
    exact Nat.mul_lt_mul_of_pos_right (hlow.2 hx hy) (Nat.two_pow_pos _)

/-- Counted in quarters of the least binary place of all, what rounds to a double lies between the
ends of its interval. -/
theorem RoundsTo.bounds (h : RoundsTo v x) :
    (x.interval.1 * 2 ^ x.scale ≤ v * 2 ^ 1076 ∧ v * 2 ^ 1076 ≤ x.interval.2.2.1 * 2 ^ x.scale) ∧
      (x.significand % 2 ≠ 0 → x.interval.1 * 2 ^ x.scale < v * 2 ^ 1076 ∧
        v * 2 ^ 1076 < x.interval.2.2.1 * 2 ^ x.scale) := by
  have hpos : (0 : ℚ) < 2 ^ x.scale := pow_pos two_pos _
  rw [← position_mul x, mul_le_mul_iff_left₀ hpos, mul_le_mul_iff_left₀ hpos,
    mul_lt_mul_iff_left₀ hpos, mul_lt_mul_iff_left₀ hpos]
  unfold RoundsTo at h
  split at h
  · next heven => exact ⟨h, fun hodd => absurd heven hodd⟩
  · exact ⟨⟨h.1.le, h.2.le⟩, fun _ => h⟩

/-- A number that rounds to the lesser of two magnitudes does not round to the greater one. Where
the intervals meet, the number would be the meeting point, and one of the two does not have it. -/
theorem Below.not_roundsTo (h : Below x y) (hx : RoundsTo v x) : ¬ RoundsTo v y := by
  intro hy
  obtain ⟨⟨-, hxle⟩, hxlt⟩ := hx.bounds
  obtain ⟨⟨hyle, -⟩, hylt⟩ := hy.bounds
  obtain ⟨hle, hlt⟩ := h.interval_le
  have hle : (x.interval.2.2.1 * 2 ^ x.scale : ℚ) ≤ y.interval.1 * 2 ^ y.scale := by
    exact_mod_cast hle
  by_cases hevenx : x.significand % 2 = 0
  · by_cases heveny : y.significand % 2 = 0
    · have hlt : (x.interval.2.2.1 * 2 ^ x.scale : ℚ) < y.interval.1 * 2 ^ y.scale := by
        exact_mod_cast hlt hevenx heveny
      exact absurd (hyle.trans hxle) (not_le.mpr hlt)
    · exact absurd ((hylt heveny).1.trans_le hxle) (not_lt.mpr hle)
  · exact absurd (hyle.trans_lt (hxlt hevenx).2) (not_lt.mpr hle)

/-- A number rounds to one magnitude only. -/
theorem eq_of_roundsTo (hx : RoundsTo v x) (hy : RoundsTo v y) :
    x.significand = y.significand ∧ x.scale = y.scale := by
  have hxy : ¬ Below x y := fun h => h.not_roundsTo hx hy
  have hyx : ¬ Below y x := fun h => h.not_roundsTo hy hx
  unfold Below at hxy hyx
  omega

/-! ### Seventeen digits suffice

The leading decimal place of a double is found by writing it with 400 places and counting digits.
At seventeen digits from there, one step of the grid is at most `4 m / 10 ^ 16` quarters, `m` being
the significand. As `m` is below `2 ^ 53`, that is less than the interval is wide, so one of the two
grid points around the double lies inside. -/

/-- The magnitude of `x`. -/
def magnitude (x : Binary64) : ℚ := x.ratio.1 / x.ratio.2

theorem magnitude_eq (x : Binary64) : x.magnitude = x.significand * 2 ^ x.scale / 2 ^ 1074 := by
  simp only [magnitude, ratio, Nat.pow_eq, Nat.cast_mul, Nat.cast_pow, Nat.cast_ofNat]

theorem position_magnitude (x : Binary64) : x.position x.magnitude = 4 * x.significand := by
  have hscale : (2 : ℚ) ^ x.scale ≠ 0 := pow_ne_zero _ two_ne_zero
  have hunit : (2 : ℚ) ^ 1074 ≠ 0 := pow_ne_zero _ two_ne_zero
  have hquarter : (2 : ℚ) ^ 1076 = 2 ^ 1074 * 2 ^ 2 := pow_add 2 1074 2
  rw [position, magnitude_eq, hquarter]
  generalize (2 : ℚ) ^ 1074 = unit at hunit ⊢
  field_simp
  norm_num

/-- The count of decimal digits bounds a number from below. -/
theorem exists_length_repr {n : Nat} (h : 0 < n) : ∃ k, n.repr.length = k + 1 ∧ 10 ^ k ≤ n := by
  have hlength : n.repr.length = (Nat.toDigits 10 n).length := by
    rw [← String.length_toList, Nat.toList_repr]
  obtain ⟨k, hk⟩ : ∃ k, n.repr.length = k + 1 := by
    refine Nat.exists_eq_succ_of_ne_zero ?_
    rw [hlength]
    exact fun h => Nat.toDigits_ne_nil (List.length_eq_zero_iff.mp h)
  refine ⟨k, hk, Nat.le_of_not_lt fun hlt => ?_⟩
  rcases Nat.eq_zero_or_pos k with rfl | hpos
  · omega
  · -- with `k` digits at most the number would be shorter than it is
    have hshort := (Nat.length_toDigits_le_iff (by decide) hpos).mpr hlt
    omega

theorem zpow_le_div {k places n d : Nat} (hd : 0 < d) (h : 10 ^ k ≤ n * 10 ^ places / d) :
    (10 : ℚ) ^ ((k : Int) - places) ≤ n / d := by
  have hmul : 10 ^ k * d ≤ n * 10 ^ places :=
    (Nat.mul_le_mul_right d h).trans (Nat.div_mul_le_self _ _)
  rw [zpow_sub₀ (by norm_num), zpow_natCast, zpow_natCast,
    div_le_div_iff₀ (pow_pos (by norm_num) _) (by exact_mod_cast hd)]
  exact_mod_cast hmul

theorem two_pow_le_ten_pow {a b : Nat} (h : a ≤ 3 * b) : 2 ^ a ≤ 10 ^ b :=
  calc 2 ^ a ≤ 2 ^ (3 * b) := Nat.pow_le_pow_right (by decide) h
    _ = (2 ^ 3) ^ b := Nat.pow_mul 2 3 b
    _ ≤ 10 ^ b := Nat.pow_le_pow_left (by decide) b

theorem significand_pos (h : x.isZero = false) : 0 < x.significand :=
  Nat.pos_of_ne_zero (by simpa [isZero] using h)

/-- A double as a quotient. The power is closed, and to compare it with anything would compute it,
so here and below its exponent is made a variable first. -/
theorem ratio_eq (x : Binary64) : x.ratio = (x.significand * 2 ^ x.scale, 2 ^ 1074) := by
  unfold ratio
  generalize 1074 = k
  rfl

theorem ratio_den_pos (x : Binary64) : 0 < x.ratio.2 := by
  rw [ratio_eq]
  generalize 1074 = k
  exact Nat.two_pow_pos k

/-- At 400 decimal places a double that is not zero does not vanish. -/
theorem ratio_den_le (h : x.isZero = false) : x.ratio.2 ≤ x.ratio.1 * 10 ^ 400 := by
  have hnum : 0 < x.significand * 2 ^ x.scale :=
    Nat.mul_pos (significand_pos h) (Nat.two_pow_pos _)
  have hunit : 2 ^ 1074 ≤ 10 ^ 400 := two_pow_le_ten_pow (by decide)
  rw [ratio_eq]
  exact hunit.trans (Nat.le_mul_of_pos_left _ hnum)

theorem leadingPlace_eq (x : Binary64) : x.leadingPlace =
    ((x.ratio.1 * 10 ^ 400 / x.ratio.2).repr.length : Int) - 401 := by
  unfold leadingPlace
  generalize x.ratio = r
  generalize 400 = places
  rfl

/-- The leading place is not beyond the number. -/
theorem leadingPlace_le (h : x.isZero = false) : (10 : ℚ) ^ x.leadingPlace ≤ x.magnitude := by
  obtain ⟨k, hk, hle⟩ := exists_length_repr (Nat.div_pos (ratio_den_le h) (ratio_den_pos x))
  have hplace : ((k + 1 : ℕ) : Int) - 401 = k - (400 : ℕ) := by omega
  rw [leadingPlace_eq, hk, hplace]
  exact zpow_le_div (ratio_den_pos x) hle

/-- One step of the grid of seventeen digits is short, counted in quarters of the last place. -/
theorem position_step_le (h : x.isZero = false) :
    x.position (10 ^ (x.leadingPlace - 16)) * 10 ^ 16 ≤ 4 * x.significand := by
  rw [← position_magnitude]
  have hstep : (10 : ℚ) ^ (x.leadingPlace - 16) * 10 ^ 16 ≤ x.magnitude := by
    rw [← zpow_natCast, ← zpow_add₀ (by norm_num)]
    simpa using leadingPlace_le h
  have hpos : (0 : ℚ) < 2 ^ 1076 / 2 ^ x.scale := by positivity
  unfold position
  rw [mul_div_assoc, mul_div_assoc, mul_right_comm]
  exact mul_le_mul_of_nonneg_right hstep hpos.le

/-- What lies between the ends of the interval of `x` rounds to `x`. -/
theorem roundsTo_of_lt (hlow : x.interval.1 < x.position v)
    (hhigh : x.position v < x.interval.2.2.1) : RoundsTo v x := by
  unfold RoundsTo
  split
  · exact ⟨hlow.le, hhigh.le⟩
  · exact ⟨hlow, hhigh⟩

/-- A number that is no further from `x` than half a short step rounds to `x`. Half a step is less
than half the interval, also on the side where the interval is shorter. -/
theorem roundsTo_of_near (h : x.isZero = false) {step : ℚ}
    (hstep : step * 10 ^ 16 ≤ 4 * x.significand)
    (hlow : 4 * x.significand - step / 2 ≤ x.position v)
    (hhigh : x.position v ≤ 4 * x.significand + step / 2) : RoundsTo v x := by
  have hsig := significand_pos h
  obtain ⟨hmax, -, -⟩ := x.canonical
  simp only [Nat.pow_eq, Nat.reducePow] at hmax
  have hmax : (x.significand : ℚ) < 9007199254740992 := by exact_mod_cast hmax
  have hhighEnd : (x.interval.2.2.1 : ℚ) = 4 * x.significand + 2 := by
    simp [interval]
  have hlowEnd := interval_low x
  norm_num at hstep
  -- half a step is less than half a place, on either side
  apply roundsTo_of_lt
  · split at hlowEnd
    · -- below a power of two the places are half as large, but there the step is shorter too
      next hpower =>
      have hend : (x.interval.1 : ℚ) = 4 * 2 ^ 52 - 1 := by
        rw [hlowEnd, hpower.1]
        norm_num
      rw [hpower.1] at hstep hlow
      norm_num at hstep hlow hend
      linarith
    · have hend : (x.interval.1 : ℚ) = 4 * x.significand - 2 := by
        rw [hlowEnd, Nat.cast_sub (by omega)]
        norm_num
      linarith
  · -- above, the places are no smaller than those of the double itself
    linarith

/-! ### The shortest decimal

The search tries one digit, then two, and so on up to seventeen, and takes the first grid that
yields a decimal. What it takes has passed the test, so it rounds to the double; and that it finds
something is known from the last grid. Dropping zeros at the end does not change the number. -/

/-- The number that a decimal says. -/
def Decimal.value (d : Decimal) : ℚ := d.digits * 10 ^ d.exponent

theorem nearest?_spec {reads : Nat → Bool} {place : Int} {n d : Nat} {r : Decimal}
    (h : nearest? reads place n d = some r) : r.exponent = place ∧ reads r.digits = true := by
  simp only [nearest?] at h
  split at h
  · cases h
  · next hbelow _ =>
    cases h
    exact ⟨rfl, hbelow⟩
  · next _ habove =>
    cases h
    exact ⟨rfl, habove⟩
  · next hbelow habove =>
    split at h <;> cases h
    · exact ⟨rfl, hbelow⟩
    · exact ⟨rfl, habove⟩

/-- One of the two neighbours passes the test, so one is chosen. Which of them does not matter here.
-/
theorem exists_nearest? {reads : Nat → Bool} {place : Int} {n d : Nat}
    (h : reads (n / d) = true ∨ reads (n / d + 1) = true) :
    ∃ r, nearest? reads place n d = some r := by
  simp only [nearest?]
  split
  · simp_all
  · exact ⟨_, rfl⟩
  · exact ⟨_, rfl⟩
  · split <;> exact ⟨_, rfl⟩

/-- What the grid of some number of digits yields rounds to the double. -/
theorem roundsTo_of_onGrid? {count : Nat} {d : Decimal} (h : x.onGrid? count = some d) :
    RoundsTo d.value x := by
  unfold onGrid? at h
  obtain ⟨hplace, hreads⟩ := nearest?_spec h
  unfold Decimal.value
  rw [hplace]
  exact readsBack_iff.mp hreads

theorem le_div_lt {n d : Nat} (hd : 0 < d) :
    ((n / d : ℕ) : ℚ) ≤ n / d ∧ (n / d : ℚ) < (n / d + 1 : ℕ) := by
  have hpos : (0 : ℚ) < d := by exact_mod_cast hd
  rw [le_div_iff₀ hpos, div_lt_iff₀ hpos]
  constructor
  · exact_mod_cast Nat.div_mul_le_self n d
  · exact_mod_cast Nat.lt_mul_of_div_lt (Nat.lt_succ_self _) hd

/-- One of two neighbours on a fine grid rounds to the double between them. -/
theorem roundsTo_or_next (h : x.isZero = false) {place : Int} {c : Nat}
    (hstep : x.position (10 ^ place) * 10 ^ 16 ≤ 4 * x.significand)
    (hbelow : c * 10 ^ place ≤ x.magnitude) (habove : x.magnitude ≤ (c + 1 : ℕ) * 10 ^ place) :
    RoundsTo (c * 10 ^ place) x ∨ RoundsTo ((c + 1 : ℕ) * 10 ^ place) x := by
  have hbelow := position_le x hbelow
  have habove := position_le x habove
  rw [position_magnitude, position_mul_left] at hbelow habove
  rw [Nat.cast_succ] at habove
  have hnear := fun v => @roundsTo_of_near x v h _ hstep
  by_cases hhalf : 4 * x.significand - c * x.position (10 ^ place) ≤ x.position (10 ^ place) / 2
  · left
    apply hnear <;> rw [position_mul_left] <;> linarith
  · right
    apply hnear <;> rw [position_mul_left, Nat.cast_succ] <;> linarith

/-- The grid of seventeen digits is fine enough: one of the two points around the double rounds to
it. -/
theorem exists_onGrid?_seventeen (h : x.isZero = false) : ∃ d, x.onGrid? 17 = some d := by
  unfold onGrid?
  apply exists_nearest?
  have hstep : x.position (10 ^ (x.leadingPlace - (17 - 1 : Nat))) * 10 ^ 16 ≤
      4 * x.significand := position_step_le h
  generalize x.leadingPlace - (17 - 1 : Nat) = place at hstep ⊢
  obtain ⟨hbelow, habove⟩ := le_div_lt
    (scaleByTen_pos x.ratio.1 (ratio_den_pos x) (-place))
  rw [scaleByTen_eq, zpow_neg, ← div_eq_mul_inv] at hbelow habove
  have hten : (0 : ℚ) < 10 ^ place := zpow_pos (by norm_num) _
  rw [le_div_iff₀ hten] at hbelow
  rw [div_lt_iff₀ hten] at habove
  simp only [readsBack_iff]
  exact roundsTo_or_next h hstep hbelow habove.le

theorem dropZeros_value (fuel : Nat) (d : Decimal) : (dropZeros fuel d).value = d.value := by
  induction fuel generalizing d with
  | zero => rfl
  | succ fuel ih =>
    rw [dropZeros]
    split
    · next htail =>
      simp only [Bool.and_eq_true, beq_iff_eq] at htail
      have hdigits : d.digits = 10 * (d.digits / 10) := by omega
      have hcast : (d.digits : ℚ) = 10 * (d.digits / 10 : ℕ) := by exact_mod_cast hdigits
      rw [ih, Decimal.value, Decimal.value, hcast, zpow_add_one₀ (by norm_num)]
      ring
    · rfl

/-- The shortest decimal of a double rounds to it. -/
theorem roundsTo_shortest (h : x.isZero = false) : RoundsTo x.shortest.value x := by
  obtain ⟨last, hlast⟩ := exists_onGrid?_seventeen h
  have hsome : ((List.range 17).findSome? fun i => x.onGrid? (i + 1)).isSome = true :=
    List.findSome?_isSome_iff.mpr ⟨16, by decide, by rw [hlast]; rfl⟩
  obtain ⟨d, hd⟩ := Option.isSome_iff_exists.mp hsome
  obtain ⟨i, -, hi⟩ := List.exists_of_findSome?_eq_some hd
  rw [shortest, hd, dropZeros_value]
  exact roundsTo_of_onGrid? hi

end Prospectus.Binary64
