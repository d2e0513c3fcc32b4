import Mathlib.Data.Nat.Digits.Defs
import Prospectus.Proofs.Json.Tokens

/-! # Written integers

An integer is read back from its decimal digits (`Number.readsBack_integer`), so of the numbers of
a tree only the doubles have to be looked at (`Json.readsBack_of_reals`).

Integers of up to 64 bits are written exactly and read exactly, which takes an induction on their
digits. Doubles are another matter. They are written as the shortest decimal that rounds to them,
and a reader may round in its own way; so that a double reads back is a hypothesis wherever it is
needed, and it can be decided for each number that occurs. -/

namespace Prospectus

open Json.Token

/-! ### Decimal digits

The scanner collects the digits of a literal and adds them up afterwards, and it stops adding when
the sum would no longer fit a word of 64 bits. The digits of a number that fits are all added. -/

theorem Literal.gather_concat {n m d : Nat} {ds : List Nat} (h : gather n ds = (m, []))
    (hd : 10 * m + d < 0x10000000000000000) : gather n (ds ++ [d]) = (10 * m + d, []) := by
  induction ds generalizing n with
  | nil =>
    obtain rfl : n = m := congrArg Prod.fst h
    rw [List.nil_append, gather, if_pos hd, gather]
  | cons e ds ih =>
    rw [gather] at h
    split at h
    · next he => rw [List.cons_append, gather, if_pos he, ih h]
    · cases h

/-- The digits of a number of 64 bits are gathered into the number. -/
theorem Literal.gather_digits {n : Nat} (h : n < 0x10000000000000000) :
    gather 0 (Nat.digits 10 n).reverse = (n, []) := by
  -- all digits but the last one are those of `n / 10`
  induction n using Nat.strongRecOn with
  | ind n ih =>
    rcases Nat.eq_zero_or_pos n with rfl | hpos
    · simp [gather]
    · have hsum : 10 * (n / 10) + n % 10 = n := Nat.div_add_mod n 10
      have hrest := ih (n / 10) (by omega) (by omega)
      rw [Nat.digits_def' (by omega) hpos, List.reverse_cons, gather_concat hrest (by omega), hsum]

namespace Json.Token

theorem digit?_digitChar :
    ∀ d < 10, digit? d.digitChar = some d ∧ d.digitChar ∉ ['.', 'e', 'E'] := by
  decide

theorem step_whole (l : Literal) {d : Nat} (h : d < 10) :
    step (.number l .whole) d.digitChar =
      ([], .number { l with whole := d :: l.whole } .whole) := by
  obtain ⟨hdigit, hletters⟩ := digit?_digitChar d h
  simp only [List.mem_cons, List.not_mem_nil, or_false, not_or] at hletters
  simp only [step, numberStep, hletters, or_self, if_false, hdigit, Option.map_some]

/-- Where the first digit of a positive number begins a literal, all its digits do. -/
theorem run_toDigits {state : State} {negative : Bool} {n : Nat}
    (hfirst : ∀ d < 10, 0 < d →
      step state d.digitChar = ([], .number ⟨negative, [d], none, none⟩ .whole))
    (hn : 0 < n) : run state (Nat.toDigits 10 n) =
      ([], .number ⟨negative, Nat.digits 10 n, none, none⟩ .whole) := by
  induction n using Nat.strongRecOn with
  | ind n ih =>
    rw [Nat.toDigits_eq_if (by omega)]
    split_ifs with hsmall
    · rw [run, run, hfirst n hsmall hn, Nat.digits_of_lt 10 n (by omega) hsmall]
      rfl
    · rw [run_append, ih (n / 10) (by omega) (by omega), run, run,
        step_whole _ (Nat.mod_lt n (by omega)), Nat.digits_def' (by omega) hn]
      rfl

/-- The literal of the digits of an integer is the integer, but for negative zero, which is a
double. -/
theorem ofLiteral_digits {negative : Bool} {n : Nat} {number : Number}
    (hn : n < 0x10000000000000000) (hzero : (negative && n == 0) = false)
    (hnumber : Number.ofInt? (if negative then -(n : Int) else n) = some number) :
    ofLiteral ⟨negative, Nat.digits 10 n, none, none⟩ = .num number := by
  simp only [ofLiteral, Literal.number?, Literal.gather_digits hn, Option.map_none,
    Option.isSome_none, List.isEmpty_nil, hzero, hnumber, Bool.not_true, Bool.or_self,
    Bool.false_eq_true, if_false]

end Json.Token

/-! ### Integers

Zero, positive and negative integers begin in different states of the scanner, and from the second
digit on they go alike. Digits alone may still be read as a double, where there are too many of them
for 64 bits and in the text `-0`; no integer is written so. -/

theorem Number.readsBack_natural {n : Nat}
    (h : -0x8000000000000000 ≤ (n : Int) ∧ (n : Int) < 0x10000000000000000) :
    (Number.integer n h).ReadsBack := by
  have htext : (toString (n : Int)).toList = Nat.toDigits 10 n := Nat.toList_repr
  have hfirst : ∀ d < 10, 0 < d →
      step .between d.digitChar = ([], .number ⟨false, [d], none, none⟩ .whole) := by
    decide
  rw [ReadsBack, text, htext]
  rcases Nat.eq_zero_or_pos n with rfl | hpos
  · -- zero is no run of digits: after a leading zero none may follow
    rfl
  · have hint : ofInt? (if false = true then -(n : Int) else n) = some (.integer n h) :=
      dif_pos h
    rw [scan, scanFrom_eq_run, run_toDigits hfirst hpos]
    exact congrArg List.singleton (ofLiteral_digits (by omega) rfl hint)

theorem Number.readsBack_negative {n : Nat}
    (h : -0x8000000000000000 ≤ -((n + 1 : Nat) : Int) ∧
      -((n + 1 : Nat) : Int) < 0x10000000000000000) :
    (Number.integer (-((n + 1 : Nat) : Int)) h).ReadsBack := by
  have htext : (toString (-((n + 1 : Nat) : Int))).toList = '-' :: Nat.toDigits 10 (n + 1) := by
    show ("-" ++ (n + 1).repr).toList = _
    rw [String.toList_append, Nat.toList_repr]
    rfl
  -- the first digit after the sign is no zero, and zero is the only digit that ends a whole part
  have hfirst : ∀ d < 10, 0 < d →
      step (.number ⟨true, [], none, none⟩ .sign) d.digitChar =
        ([], .number ⟨true, [d], none, none⟩ .whole) := by
    decide
  have hminus : step .between '-' = ([], .number ⟨true, [], none, none⟩ .sign) := rfl
  have hint : ofInt? (if true = true then -((n + 1 : Nat) : Int) else (n + 1 : Nat)) =
      some (.integer _ h) := dif_pos h
  rw [ReadsBack, text, htext, scan, scanFrom_eq_run, run, hminus, run_toDigits hfirst n.succ_pos]
  exact congrArg List.singleton (ofLiteral_digits (by omega) rfl hint)

theorem Number.readsBack_integer {value : Int}
    (h : -0x8000000000000000 ≤ value ∧ value < 0x10000000000000000) :
    (Number.integer value h).ReadsBack := by
  cases value with
  | ofNat n => exact readsBack_natural h
  | negSucc n => exact readsBack_negative h

/-- If the doubles of a tree read back, all its numbers do. -/
theorem Json.readsBack_of_reals {j : Json}
    (h : ∀ x, Number.real x ∈ j.numbers → (Number.real x).ReadsBack) :
    ∀ n ∈ j.numbers, n.ReadsBack := by
  intro n hn
  cases n with
  | integer value hrange => exact Number.readsBack_integer hrange
  | real x => exact h x hn

end Prospectus
