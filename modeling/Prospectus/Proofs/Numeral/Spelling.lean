import Mathlib.Data.List.TakeWhile
import Prospectus.Proofs.Numeral.Rounding

/-! # The text of a double

A double is written as a sign and the digits of its shortest decimal, in one of the shapes that
`Spells` lists. The characters of such a shape determine the number that they spell
(`Spells.unique`). As the number rounds to one magnitude only, no two doubles have one text
(`text_injective`).

There is no parser of doubles here, and none is needed. `textValue` reads a text as a rational
number, by its point and its exponent; it serves as a left inverse of spelling, up to the rounding
that makes a double of a rational number. -/

namespace Prospectus.Binary64

/-! ### The number that a text says

The text is cut at the letter `e` and at the point. What stands in front of the `e` is a number with
a fraction, and what stands behind it is a power of ten with a sign in front. -/

/-- The number that decimal digits say, of which those after the point are its fraction. -/
def mantissaValue (cs : List Char) : ℚ :=
  Nat.ofDigitChars 10 (cs.filter (· ≠ '.')) 0 / 10 ^ (cs.dropWhile (· ≠ '.')).tail.length

/-- The power of ten that a sign and decimal digits say. -/
def exponentValue : List Char → Int
  | [] => 0
  | sign :: ds =>
    if sign = '-' then -(Nat.ofDigitChars 10 ds 0 : Int) else Nat.ofDigitChars 10 ds 0

/-- The number that a text in the output format says. -/
def textValue (cs : List Char) : ℚ :=
  mantissaValue (cs.takeWhile (· ≠ 'e')) * 10 ^ exponentValue (cs.dropWhile (· ≠ 'e')).tail

/-- All characters are decimal digits. -/
def AreDigits (cs : List Char) : Prop := ∀ c ∈ cs, c.isDigit = true

theorem areDigits_zeros (n : Nat) : AreDigits (List.replicate n '0') := by
  intro c hc
  rw [List.eq_of_mem_replicate hc]
  rfl

theorem areDigits_repr (n : Nat) : AreDigits n.repr.toList := by
  intro c hc
  rw [Nat.toList_repr] at hc
  exact Nat.isDigit_of_mem_toDigits (by decide) (by decide) hc

theorem AreDigits.append {cs ds : List Char} (hc : AreDigits cs) (hd : AreDigits ds) :
    AreDigits (cs ++ ds) :=
  List.forall_mem_append.mpr ⟨hc, hd⟩

theorem AreDigits.ne {cs : List Char} (h : AreDigits cs) {mark : Char}
    (hmark : mark.isDigit = false) : ∀ c ∈ cs, c ≠ mark := by
  rintro c hc rfl
  rw [h c hc] at hmark
  cases hmark

theorem repr_ne_nil (n : Nat) : n.repr.toList ≠ [] := by
  rw [Nat.toList_repr]
  exact Nat.toDigits_ne_nil

theorem ofDigitChars_repr (n : Nat) : Nat.ofDigitChars 10 n.repr.toList 0 = n := by
  rw [Nat.toList_repr, Nat.ofDigitChars_toDigits (by decide) (by decide)]

theorem mantissaValue_point {whole fraction : List Char} (hw : AreDigits whole)
    (hf : AreDigits fraction) : mantissaValue (whole ++ '.' :: fraction) =
      Nat.ofDigitChars 10 (whole ++ fraction) 0 / 10 ^ fraction.length := by
  have hw : ∀ c ∈ whole, c ≠ '.' := hw.ne rfl
  have hf : ∀ c ∈ fraction, c ≠ '.' := hf.ne rfl
  have hfilter : (whole ++ '.' :: fraction).filter (· ≠ '.') = whole ++ fraction := by
    rw [List.filter_append, List.filter_cons_of_neg (by decide),
      List.filter_eq_self.mpr (by simpa using hw), List.filter_eq_self.mpr (by simpa using hf)]
  have hdrop : (whole ++ '.' :: fraction).dropWhile (· ≠ '.') = '.' :: fraction := by
    rw [List.dropWhile_append_of_pos (by simpa using hw)]
    rfl
  rw [mantissaValue, hfilter, hdrop, List.tail_cons]

theorem mantissaValue_whole {whole : List Char} (hw : AreDigits whole) :
    mantissaValue whole = Nat.ofDigitChars 10 whole 0 := by
  have hw : ∀ c ∈ whole, c ≠ '.' := hw.ne rfl
  have hdrop : whole.dropWhile (· ≠ '.') = [] := List.dropWhile_eq_nil_iff.mpr (by simpa using hw)
  rw [mantissaValue, List.filter_eq_self.mpr (by simpa using hw), hdrop]
  simp

theorem textValue_plain {cs : List Char} (h : ∀ c ∈ cs, c ≠ 'e') :
    textValue cs = mantissaValue cs := by
  have hdrop : cs.dropWhile (· ≠ 'e') = [] := List.dropWhile_eq_nil_iff.mpr (by simpa using h)
  rw [textValue, List.takeWhile_eq_self_iff.mpr (by simpa using h), hdrop]
  simp [exponentValue]

theorem textValue_scientific {cs : List Char} (h : ∀ c ∈ cs, c ≠ 'e') (rest : List Char) :
    textValue (cs ++ 'e' :: rest) = mantissaValue cs * 10 ^ exponentValue rest := by
  rw [textValue, List.takeWhile_append_of_pos (by simpa using h),
    List.dropWhile_append_of_pos (by simpa using h)]
  simp

theorem exponentValue_signed (e : Int) :
    exponentValue ((if e < 0 then '-' else '+') :: e.natAbs.repr.toList) = e := by
  rw [exponentValue, ofDigitChars_repr]
  split_ifs <;> first | omega | contradiction

theorem AreDigits.point_ne {whole fraction : List Char} (hw : AreDigits whole)
    (hf : AreDigits fraction) : ∀ c ∈ whole ++ '.' :: fraction, c ≠ 'e' := by
  intro c hc
  rcases List.mem_append.mp hc with hc | hc
  · exact hw.ne rfl c hc
  · rcases List.mem_cons.mp hc with rfl | hc
    · decide
    · exact hf.ne rfl c hc

/-! ### The shapes of the output format

Large and small numbers are written with an exponent, the others without. Without one, the digits
may end before the point, go across it or begin after it, and zeros fill the gap; with one, the
point stands behind the first digit. `spells_decimalText` goes through these cases, with one lemma
for each. -/

/-- Digits with the point after the first one, if others follow. -/
def mantissa (first : Char) : (rest : List Char) → List Char
  | [] => [first]
  | d :: ds => first :: '.' :: d :: ds

/-- The characters spell the number in one of the two shapes of the output format. The shapes have
more spellings than the format uses; all that matters is that each of them spells one number. -/
inductive Spells : List Char → ℚ → Prop
  | plain {whole fraction : List Char} (hwhole : AreDigits whole) (hne : whole ≠ [])
      (hfraction : AreDigits fraction) : Spells (whole ++ '.' :: fraction)
        (Nat.ofDigitChars 10 (whole ++ fraction) 0 / 10 ^ fraction.length)
  | scientific {first : Char} {rest : List Char} (hdigits : AreDigits (first :: rest)) (e : Int) :
      Spells (mantissa first rest ++ 'e' :: (if e < 0 then '-' else '+') :: e.natAbs.repr.toList)
        (Nat.ofDigitChars 10 (first :: rest) 0 / 10 ^ rest.length * 10 ^ e)

variable {cs : List Char} {v w : ℚ}

theorem mantissaValue_mantissa {first : Char} {rest : List Char}
    (h : AreDigits (first :: rest)) :
    mantissaValue (mantissa first rest) =
      Nat.ofDigitChars 10 (first :: rest) 0 / 10 ^ rest.length := by
  cases rest with
  | nil =>
    rw [mantissa, mantissaValue_whole h]
    simp
  | cons d ds =>
    obtain ⟨hfirst, hrest⟩ := List.forall_mem_cons.mp h
    have hone : AreDigits [first] := by simpa [AreDigits] using hfirst
    exact mantissaValue_point hone hrest

theorem mantissa_ne {first : Char} {rest : List Char} (h : AreDigits (first :: rest)) :
    ∀ c ∈ mantissa first rest, c ≠ 'e' := by
  cases rest with
  | nil => exact h.ne rfl
  | cons d ds =>
    obtain ⟨hfirst, hrest⟩ := List.forall_mem_cons.mp h
    have hone : AreDigits [first] := by simpa [AreDigits] using hfirst
    exact hone.point_ne hrest

/-- The number can be told from the characters. For each of the two shapes the reader finds the
point and the exponent where the writer has put them. -/
theorem Spells.textValue_eq (h : Spells cs v) : textValue cs = v := by
  cases h with
  | plain hwhole _ hfraction =>
    rw [textValue_plain (hwhole.point_ne hfraction), mantissaValue_point hwhole hfraction]
  | scientific hdigits e =>
    rw [textValue_scientific (mantissa_ne hdigits), mantissaValue_mantissa hdigits,
      exponentValue_signed]

theorem Spells.unique (hv : Spells cs v) (hw : Spells cs w) : v = w :=
  hv.textValue_eq.symm.trans hw.textValue_eq

theorem ofDigitChars_append_zeros (ds : List Char) (k : Nat) :
    Nat.ofDigitChars 10 (ds ++ List.replicate k '0') 0 = Nat.ofDigitChars 10 ds 0 * 10 ^ k := by
  rw [Nat.ofDigitChars_append, Nat.ofDigitChars_replicate_zero, Nat.mul_comm]

theorem ofDigitChars_zeros_append (ds : List Char) (k : Nat) :
    Nat.ofDigitChars 10 (List.replicate k '0' ++ ds) 0 = Nat.ofDigitChars 10 ds 0 := by
  rw [Nat.ofDigitChars_append, Nat.ofDigitChars_replicate_zero, Nat.mul_zero]

/-- A number without a fraction is written with a fraction of zero. -/
theorem spells_whole {ds : List Char} (hds : AreDigits ds) (hne : ds ≠ []) (k : Nat) :
    Spells (ds ++ List.replicate k '0' ++ ['.', '0'])
      (Nat.ofDigitChars 10 ds 0 * 10 ^ (k : Int)) := by
  have hvalue : (Nat.ofDigitChars 10 ds 0 * 10 ^ (k : Int) : ℚ) =
      Nat.ofDigitChars 10 (ds ++ List.replicate k '0' ++ List.replicate 1 '0') 0 /
        10 ^ (List.replicate 1 '0').length := by
    rw [List.append_assoc, ← List.replicate_add, ofDigitChars_append_zeros,
      List.length_replicate, zpow_natCast]
    push_cast
    rw [pow_succ, pow_one, ← mul_assoc, mul_div_cancel_right₀ _ (by norm_num)]
  rw [hvalue]
  exact .plain (hds.append (areDigits_zeros k)) (List.append_ne_nil_of_left_ne_nil hne _)
    (areDigits_zeros 1)

/-- The point stands among the digits. -/
theorem spells_split {ds : List Char} (hds : AreDigits ds) {k : Nat} (hpos : 0 < k)
    (hk : k ≤ ds.length) : Spells (ds.take k ++ '.' :: ds.drop k)
      (Nat.ofDigitChars 10 ds 0 * 10 ^ ((k : Int) - ds.length)) := by
  have hne : ds.take k ≠ [] := by
    intro h
    have hlength := congrArg List.length h
    rw [List.length_take, List.length_nil] at hlength
    omega
  have hvalue : (Nat.ofDigitChars 10 ds 0 * 10 ^ ((k : Int) - ds.length) : ℚ) =
      Nat.ofDigitChars 10 (ds.take k ++ ds.drop k) 0 / 10 ^ (ds.drop k).length := by
    rw [List.take_append_drop, List.length_drop, div_eq_mul_inv, ← zpow_natCast, ← zpow_neg,
      Nat.cast_sub hk, neg_sub]
  rw [hvalue]
  exact .plain (fun c hc => hds c (List.mem_of_mem_take hc)) hne
    fun c hc => hds c (List.mem_of_mem_drop hc)

/-- All digits stand behind the point, the first one after some zeros. -/
theorem spells_small {ds : List Char} (hds : AreDigits ds) (k : Nat) :
    Spells ('0' :: '.' :: (List.replicate k '0' ++ ds))
      (Nat.ofDigitChars 10 ds 0 * 10 ^ (-((k + ds.length : Nat) : Int))) := by
  have hvalue : (Nat.ofDigitChars 10 ds 0 * 10 ^ (-((k + ds.length : Nat) : Int)) : ℚ) =
      Nat.ofDigitChars 10 (List.replicate 1 '0' ++ (List.replicate k '0' ++ ds)) 0 /
        10 ^ (List.replicate k '0' ++ ds).length := by
    rw [← List.append_assoc, ← List.replicate_add, ofDigitChars_zeros_append, List.length_append,
      List.length_replicate, zpow_neg, zpow_natCast, div_eq_mul_inv]
  rw [hvalue]
  exact .plain (areDigits_zeros 1) (by decide) ((areDigits_zeros k).append hds)

/-- The point stands behind the first digit, and the exponent says where it belongs. -/
theorem spells_scaled {first : Char} {rest : List Char} (h : AreDigits (first :: rest)) (e : Int) :
    Spells (mantissa first rest ++ 'e' :: (if e < 0 then '-' else '+') :: e.natAbs.repr.toList)
      (Nat.ofDigitChars 10 (first :: rest) 0 * 10 ^ (e - rest.length)) := by
  have hvalue : (Nat.ofDigitChars 10 (first :: rest) 0 * 10 ^ (e - rest.length) : ℚ) =
      Nat.ofDigitChars 10 (first :: rest) 0 / 10 ^ rest.length * 10 ^ e := by
    rw [zpow_sub₀ (by norm_num), zpow_natCast]
    ring
  rw [hvalue]
  exact .scientific h e

/-- The digits of a decimal, with the point and the exponent where they belong, spell its value. -/
theorem spells_decimalText (d : Decimal) : Spells (decimalText d).toList d.value := by
  have hdigits := areDigits_repr d.digits
  have hvalue := ofDigitChars_repr d.digits
  have hne := repr_ne_nil d.digits
  simp only [decimalText, String.toList_ofList, Decimal.value]
  rw [← congrArg (Nat.cast (R := ℚ)) hvalue]
  generalize d.digits.repr.toList = ds at hdigits hne ⊢
  split
  · -- plain notation: zeros behind the digits, the point among them, or zeros in front of them
    split_ifs with hwhole hsplit
    · obtain ⟨k, hk⟩ := Int.eq_ofNat_of_zero_le hwhole
      rw [hk]
      exact spells_whole hdigits hne k
    · obtain ⟨k, hk⟩ := Int.eq_ofNat_of_zero_le hsplit.le
      have hexponent : d.exponent = k - ds.length := by omega
      rw [hk, hexponent]
      exact spells_split hdigits (by omega) (by omega)
    · obtain ⟨k, hk⟩ : ∃ k : Nat, -((ds.length : Int) + d.exponent) = k :=
        Int.eq_ofNat_of_zero_le (by omega)
      have hexponent : d.exponent = -((k + ds.length : Nat) : Int) := by omega
      rw [hk, hexponent]
      exact spells_small hdigits k
  · -- scientific notation: the first digit, the others behind the point, and the exponent of the
    -- first
    obtain ⟨first, rest, rfl⟩ := List.exists_cons_of_ne_nil hne
    have hexponent :
        d.exponent = ((first :: rest).length + d.exponent - 1 : Int) - rest.length := by
      rw [List.length_cons]
      omega
    have h := spells_scaled hdigits ((first :: rest).length + d.exponent - 1)
    rw [← hexponent] at h
    cases rest <;> exact h

/-! ### Which characters stand in a spelled number

Digits, the point, the letter and the signs are all that occurs, and no spelled number is without a
point or a letter. Both facts serve to find the end of a number in a document, and to tell it from
an integer. -/

/-- The characters of written numbers. -/
def IsNumberChar (c : Char) : Prop := c.isDigit = true ∨ c ∈ ['.', 'e', '+', '-']

theorem AreDigits.areNumberChars (h : AreDigits cs) : ∀ c ∈ cs, IsNumberChar c :=
  fun c hc => .inl (h c hc)

theorem areNumberChars_mantissa {first : Char} {rest : List Char}
    (h : AreDigits (first :: rest)) : ∀ c ∈ mantissa first rest, IsNumberChar c := by
  obtain ⟨hfirst, hrest⟩ := List.forall_mem_cons.mp h
  cases rest with
  | nil => exact h.areNumberChars
  | cons d ds =>
    refine List.forall_mem_cons.mpr ⟨.inl hfirst, List.forall_mem_cons.mpr ⟨.inr (by decide), ?_⟩⟩
    exact AreDigits.areNumberChars hrest

theorem Spells.areNumberChars (h : Spells cs v) : ∀ c ∈ cs, IsNumberChar c := by
  cases h with
  | plain hwhole _ hfraction =>
    refine List.forall_mem_append.mpr ⟨hwhole.areNumberChars, ?_⟩
    exact List.forall_mem_cons.mpr ⟨.inr (by decide), hfraction.areNumberChars⟩
  | scientific hdigits e =>
    refine List.forall_mem_append.mpr ⟨areNumberChars_mantissa hdigits, ?_⟩
    refine List.forall_mem_cons.mpr ⟨.inr (by decide), List.forall_mem_cons.mpr ⟨.inr ?_, ?_⟩⟩
    · split <;> decide
    · exact (areDigits_repr _).areNumberChars

/-- No run of digits spells a number in the output format. -/
theorem Spells.exists_mark (h : Spells cs v) : '.' ∈ cs ∨ 'e' ∈ cs := by
  cases h with
  | plain => exact .inl (by simp)
  | scientific => exact .inr (by simp)

def BeginsWithDigit (cs : List Char) : Prop := ∃ c rest, cs = c :: rest ∧ c.isDigit = true

theorem AreDigits.beginsWithDigit (h : AreDigits cs) (hne : cs ≠ []) : BeginsWithDigit cs := by
  obtain ⟨c, rest, rfl⟩ := List.exists_cons_of_ne_nil hne
  exact ⟨c, rest, rfl, h c List.mem_cons_self⟩

theorem Spells.beginsWithDigit (h : Spells cs v) : BeginsWithDigit cs := by
  cases h with
  | plain hwhole hne _ =>
    obtain ⟨c, rest, rfl, hc⟩ := hwhole.beginsWithDigit hne
    exact ⟨c, _, rfl, hc⟩
  | @scientific first rest hdigits e =>
    have hfirst := hdigits first List.mem_cons_self
    cases rest <;> exact ⟨first, _, rfl, hfirst⟩

/-! ### Written doubles

Zero is written with its sign, and of all other doubles the sign and the magnitude are told apart
by the first character. Equal texts then spell one number, which rounds to both magnitudes. -/

/-- What stands in front of a magnitude. -/
def signOf (negative : Bool) : List Char := if negative then ['-'] else []

theorem areNumberChars_signOf (negative : Bool) : ∀ c ∈ signOf negative, IsNumberChar c := by
  cases negative <;> simp [signOf, IsNumberChar]

/-- A magnitude begins with a digit, so its sign can be told. -/
theorem signOf_append_inj {a b : Bool} {ds : List Char} (hc : BeginsWithDigit cs)
    (hd : BeginsWithDigit ds) (h : signOf a ++ cs = signOf b ++ ds) : a = b ∧ cs = ds := by
  have hminus : ('-' : Char).isDigit = false := rfl
  obtain ⟨c, cs, rfl, hc⟩ := hc
  obtain ⟨d, ds, rfl, hd⟩ := hd
  cases a <;> cases b <;> simp only [signOf, if_true, Bool.false_eq_true, if_false,
    List.nil_append, List.cons_append, List.cons.injEq, true_and, reduceCtorEq, false_and] at h ⊢
  · exact h
  · rw [h.1, hminus] at hc
    cases hc
  · rw [← h.1, hminus] at hd
    cases hd
  · exact h

/-- A double is written as a sign and a number that rounds to its magnitude. For zero that number is
zero, and for all others the shortest decimal. -/
theorem exists_spells_text (x : Binary64) : ∃ cs v,
    x.text.toList = signOf x.negative ++ cs ∧ Spells cs v ∧ RoundsTo v x := by
  have hsign : ∀ magnitude : String, (if x.negative then "-" ++ magnitude else magnitude).toList =
      signOf x.negative ++ magnitude.toList := by
    intro magnitude
    cases x.negative
    · rfl
    · exact String.toList_append
  -- zero is written without looking for its shortest decimal
  cases hzero : x.isZero with
  | true =>
    have hvalue : RoundsTo (Nat.ofDigitChars 10 ['0', '0'] 0 / 10 ^ 1) x := by
      have hsig : x.significand = 0 := by simpa [isZero] using hzero
      simp [RoundsTo, interval, position, hsig, Nat.ofDigitChars]
    refine ⟨['0', '.', '0'], _, ?_, .plain (areDigits_zeros 1) (by decide) (areDigits_zeros 1),
      hvalue⟩
    simp only [text, hzero, if_true]
    exact hsign "0.0"
  | false =>
    refine ⟨_, _, ?_, spells_decimalText x.shortest, roundsTo_shortest hzero⟩
    simp only [text, hzero, Bool.false_eq_true, if_false]
    exact hsign _

/-- Two doubles with one text are one double. -/
theorem text_injective {x y : Binary64} (h : x.text = y.text) : x = y := by
  obtain ⟨cs, v, hx, hv, hvx⟩ := exists_spells_text x
  obtain ⟨ds, w, hy, hw, hwy⟩ := exists_spells_text y
  have htext : signOf x.negative ++ cs = signOf y.negative ++ ds := by
    rw [← hx, ← hy, h]
  obtain ⟨hnegative, rfl⟩ := signOf_append_inj hv.beginsWithDigit hw.beginsWithDigit htext
  obtain rfl := hv.unique hw
  obtain ⟨hsignificand, hscale⟩ := eq_of_roundsTo hvx hwy
  obtain ⟨nx, mx, sx, hx⟩ := x
  obtain ⟨ny, my, sy, hy⟩ := y
  simp_all only

end Prospectus.Binary64
