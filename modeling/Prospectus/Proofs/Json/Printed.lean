import Prospectus.Proofs.Json.Tokens
import Prospectus.Proofs.Numeral.Spelling

/-!
# Written trees determine the tree

No two trees are written alike, in either layout. That holds of what follows them too
(`write_append_inj`): where two texts begin with a tree each, and what follows begins with
a character that ends a number, the trees are the same and so are the rests. Numbers are told
apart by their text (`Number.text_injective`), texts because what is quoted reads back, and trees
of different kinds by their first character (`kindOf`).
-/

namespace Prospectus

open Binary64

/-! ### Numbers

A number is a sign and a magnitude, and the magnitude of a double has a point or an exponent in it,
where that of an integer has digits only. So the two kinds are told apart, and within each kind the
text determines the number: for integers by their digits, for doubles by the theory of shortest
decimals. -/

namespace Number

theorem text_integer (n : Int) (h) :
    (integer n h).text.toList = signOf (decide (n < 0)) ++ n.natAbs.repr.toList := by
  cases n with
  | ofNat n => rfl
  | negSucc n =>
    show ("-" ++ (n + 1).repr).toList = _
    have hsign : decide (Int.negSucc n < 0) = true := decide_eq_true (Int.negSucc_lt_zero n)
    rw [String.toList_append, hsign]
    rfl

/-- A number is written as a sign and a magnitude. A mark in the magnitude tells the doubles from
the integers. -/
theorem exists_text_eq (n : Number) : ∃ negative cs, n.text.toList = signOf negative ++ cs ∧
    BeginsWithDigit cs ∧ (∀ c ∈ cs, IsNumberChar c) ∧
      ((∃ x, n = .real x) ↔ '.' ∈ cs ∨ 'e' ∈ cs) := by
  cases n with
  | integer n h =>
    have hdigits := areDigits_repr n.natAbs
    refine ⟨_, _, text_integer n h, hdigits.beginsWithDigit (repr_ne_nil _),
      hdigits.areNumberChars, ?_⟩
    have hpoint : '.' ∉ n.natAbs.repr.toList := fun hmem => hdigits.ne rfl _ hmem rfl
    have hexponent : 'e' ∉ n.natAbs.repr.toList := fun hmem => hdigits.ne rfl _ hmem rfl
    simp only [hpoint, hexponent, or_self, reduceCtorEq, exists_false]
  | real x =>
    obtain ⟨cs, v, htext, hspells, -⟩ := exists_spells_text x
    exact ⟨_, cs, htext, hspells.beginsWithDigit, hspells.areNumberChars,
      iff_of_true ⟨x, rfl⟩ hspells.exists_mark⟩

theorem eq_of_text_integer {m n : Int} {hm hn} (h : (integer m hm).text = (integer n hn).text) :
    m = n := by
  have htext : signOf (decide (m < 0)) ++ m.natAbs.repr.toList =
      signOf (decide (n < 0)) ++ n.natAbs.repr.toList := by
    rw [← text_integer m hm, ← text_integer n hn, h]
  obtain ⟨hsign, hrepr⟩ := signOf_append_inj
    ((areDigits_repr _).beginsWithDigit (repr_ne_nil _))
    ((areDigits_repr _).beginsWithDigit (repr_ne_nil _)) htext
  have habs : m.natAbs = n.natAbs := by
    rw [← ofDigitChars_repr m.natAbs, hrepr, ofDigitChars_repr]
  have hsign : m < 0 ↔ n < 0 := by simpa using hsign
  omega

/-- Two numbers with one text are one number. -/
theorem text_injective {m n : Number} (h : m.text = n.text) : m = n := by
  obtain ⟨a, cs, hm, hc, -, hrealm⟩ := exists_text_eq m
  obtain ⟨b, ds, hn, hd, -, hrealn⟩ := exists_text_eq n
  have htext : signOf a ++ cs = signOf b ++ ds := by
    rw [← hm, ← hn, h]
  -- the text of a double has a point or an exponent, that of an integer has neither
  have hkind : (∃ x, m = .real x) ↔ ∃ x, n = .real x := by
    rw [hrealm, hrealn, (signOf_append_inj hc hd htext).2]
  cases m with
  | integer m hm =>
    cases n with
    | integer n hn =>
      obtain rfl := eq_of_text_integer h
      rfl
    | real y => simp at hkind
  | real x =>
    cases n with
    | integer n hn => simp at hkind
    | real y => exact congrArg real (Binary64.text_injective h)

theorem areNumberChars_text (n : Number) : ∀ c ∈ n.text.toList, IsNumberChar c := by
  obtain ⟨negative, cs, htext, -, hchars, -⟩ := exists_text_eq n
  rw [htext]
  exact List.forall_mem_append.mpr ⟨areNumberChars_signOf negative, hchars⟩

theorem exists_text_head (n : Number) : ∃ c cs, n.text.toList = c :: cs ∧ IsNumberChar c ∧
    c ≠ 'e' := by
  obtain ⟨negative, _, htext, ⟨c, cs, rfl, hc⟩, hchars, -⟩ := exists_text_eq n
  rw [htext]
  cases negative with
  | false =>
    refine ⟨c, cs, rfl, hchars c List.mem_cons_self, ?_⟩
    rintro rfl
    cases hc
  | true => exact ⟨'-', c :: cs, rfl, .inr (by decide), by decide⟩

end Number

namespace Json

open Token

theorem isNumberChar_ne {c : Char} (h : IsNumberChar c) : c ∉ [',', ']', '}', '\n'] := by
  rintro hend
  simp only [List.mem_cons, List.not_mem_nil, or_false] at hend
  rcases hend with rfl | rfl | rfl | rfl <;> revert h <;> simp [IsNumberChar]

/-- Where a number ends can be told: it goes on as long as there are characters of numbers, and
neither rest begins with one. -/
theorem number_append_inj {as bs r s : List Char} (ha : ∀ c ∈ as, IsNumberChar c)
    (hb : ∀ c ∈ bs, IsNumberChar c) (hr : EndsNumber r) (hs : EndsNumber s)
    (h : as ++ r = bs ++ s) : as = bs ∧ r = s := by
  induction as generalizing bs with
  | nil =>
    cases bs with
    | nil => exact ⟨rfl, h⟩
    | cons b bs =>
      -- a character of the other number would end this one
      have hend : b ∈ [',', ']', '}', '\n'] := by
        apply hr
        rw [List.nil_append] at h
        rw [h]
        rfl
      exact absurd hend (isNumberChar_ne (hb b List.mem_cons_self))
  | cons a as ih =>
    cases bs with
    | nil =>
      -- and the other way round
      have hend : a ∈ [',', ']', '}', '\n'] := by
        apply hs
        rw [List.nil_append] at h
        rw [← h]
        rfl
      exact absurd hend (isNumberChar_ne (ha a List.mem_cons_self))
    | cons b bs =>
      simp only [List.cons_append, List.cons.injEq] at h
      obtain ⟨rfl, htail⟩ := h
      obtain ⟨rfl, hrest⟩ := ih (fun c hc => ha c (List.mem_cons_of_mem _ hc))
        (fun c hc => hb c (List.mem_cons_of_mem _ hc)) htail
      exact ⟨rfl, hrest⟩

/-! ### Texts

A quote in a text is escaped, so the first quote that is not ends the text. That reading gives back
what was quoted is known from the scanner, and it gives injectivity for free. -/

/-- What is quoted reads back, so the end of a text can be told. Scanning both sides gives the texts
as first tokens. -/
theorem quote_append_inj {s t : String} {r u : List Char} (h : quote s ++ r = quote t ++ u) :
    s = t ∧ r = u := by
  have hscan : Token.str s :: scan r = .str t :: scan u := by
    rw [← scan_quote, ← scan_quote, h]
  simp only [List.cons.injEq, Token.str.injEq] at hscan
  obtain ⟨rfl, -⟩ := hscan
  exact ⟨rfl, List.append_cancel_left h⟩

/-! ### First characters

The first character of a written tree says of which kind it is, and it is never one of those that
close an array or follow a value. With the first fact the two trees can be assumed to be of one
kind; with the second one, a list of items that has ended is told from one that goes on. -/

inductive Kind
  | null
  | bool
  | num
  | str
  | arr
  | obj

def kind : Json → Kind
  | .null => .null
  | .bool _ => .bool
  | .num _ => .num
  | .str _ => .str
  | .arr _ => .arr
  | .obj _ => .obj

/-- The kind of the trees whose text begins with a character. -/
def kindOf (c : Char) : Kind :=
  if c = 'n' then .null
  else if c = 't' ∨ c = 'f' then .bool
  else if c = '"' then .str
  else if c = '[' then .arr
  else if c = '{' then .obj
  else .num

theorem kindOf_number {c : Char} (h : IsNumberChar c) (he : c ≠ 'e') : kindOf c = .num := by
  have hne : ∀ mark ∈ ['n', 't', 'f', '"', '[', '{'], c ≠ mark := by
    rintro mark hmark rfl
    simp only [List.mem_cons, List.not_mem_nil, or_false] at hmark
    rcases hmark with rfl | rfl | rfl | rfl | rfl | rfl <;> revert h <;> simp [IsNumberChar]
  simp only [List.forall_mem_cons] at hne
  simp [kindOf, hne]

theorem exists_write_head (layout : Layout) (level : Nat) (j : Json) : ∃ c cs,
    write layout level j = c :: cs ∧ c ∉ [',', ']', '}', '\n'] ∧ kindOf c = j.kind := by
  cases j with
  | null => exact ⟨'n', _, rfl, by decide, rfl⟩
  | bool b => cases b <;> exact ⟨_, _, rfl, by decide, rfl⟩
  | num n =>
    obtain ⟨c, cs, htext, hc, he⟩ := n.exists_text_head
    exact ⟨c, cs, by rw [write, htext], isNumberChar_ne hc, kindOf_number hc he⟩
  | str s => exact ⟨'"', _, rfl, by decide, rfl⟩
  | arr items => cases items <;> exact ⟨'[', _, rfl, by decide, rfl⟩
  | obj members => cases members <;> exact ⟨'{', _, rfl, by decide, rfl⟩

theorem kind_eq_of_write {layout : Layout} {level : Nat} {a b : Json} {r s : List Char}
    (h : write layout level a ++ r = write layout level b ++ s) : a.kind = b.kind := by
  obtain ⟨c, cs, ha, -, hkinda⟩ := exists_write_head layout level a
  obtain ⟨d, ds, hb, -, hkindb⟩ := exists_write_head layout level b
  rw [ha, hb] at h
  rw [← hkinda, ← hkindb, (List.cons.inj h).1]

/-- No bracket closes where an item begins, so an array that is empty is told from one that is not.
-/
theorem lineBreak_write_ne (layout : Layout) (level : Nat) (j : Json) (r s : List Char) :
    layout.lineBreak level ++ (write layout level j ++ r) ≠ ']' :: s := by
  cases layout with
  | compact =>
    obtain ⟨c, cs, hj, hc, -⟩ := exists_write_head .compact level j
    rw [hj]
    intro h
    rw [(List.cons.inj h).1] at hc
    exact hc (by decide)
  | indented => simp [Layout.lineBreak]

theorem lineBreak_quote_ne (layout : Layout) (level : Nat) (k : String) (r s : List Char) :
    layout.lineBreak level ++ (quote k ++ r) ≠ '}' :: s := by
  cases layout <;> simp [Layout.lineBreak, quote]

theorem lineBreak_close_ne (layout : Layout) (level : Nat) {c : Char} (hc : c ≠ ',')
    (r s : List Char) : layout.lineBreak level ++ c :: r ≠ ',' :: s := by
  cases layout <;> simp [Layout.lineBreak, hc]

/-! ### Trees

The induction is on the first tree, with the second one and both rests arbitrary. The rests are what
makes it go through: the first item of an array is followed by the others, so the statement about
the whole array gives the one about the item and what is left for the others. -/

/-- The items of an array are written as if others stood before them. -/
theorem writeItems_eq_of_write {layout : Layout} {level : Nat} {xs ys : List Json}
    {r s : List Char} (h : write layout level (.arr xs) ++ r = write layout level (.arr ys) ++ s) :
    writeItems layout level xs ++ ']' :: r = writeItems layout level ys ++ ']' :: s := by
  -- the first character after the bracket is a line break, a bracket, or begins a value
  cases xs with
  | nil =>
    cases ys with
    | nil => simpa [write, writeItems] using h
    | cons y ys =>
      simp only [write, List.cons_append, List.append_assoc, List.cons.injEq, true_and] at h
      exact absurd h.symm (lineBreak_write_ne layout (level + 1) y _ _)
  | cons x xs =>
    cases ys with
    | nil =>
      simp only [write, List.cons_append, List.append_assoc, List.cons.injEq, true_and] at h
      exact absurd h (lineBreak_write_ne layout (level + 1) x _ _)
    | cons y ys => simpa [write, writeItems] using h

theorem writeMembers_eq_of_write {layout : Layout} {level : Nat} {ms ns : List (String × Json)}
    {r s : List Char} (h : write layout level (.obj ms) ++ r = write layout level (.obj ns) ++ s) :
    writeMembers layout level ms ++ '}' :: r = writeMembers layout level ns ++ '}' :: s := by
  -- the same with members, where a value begins with the quotation mark of a name
  cases ms with
  | nil =>
    cases ns with
    | nil => simpa [write, writeMembers] using h
    | cons n ns =>
      simp only [write, List.cons_append, List.append_assoc, List.cons.injEq, true_and] at h
      exact absurd h.symm (lineBreak_quote_ne layout (level + 1) n.1 _ _)
  | cons m ms =>
    cases ns with
    | nil =>
      simp only [write, List.cons_append, List.append_assoc, List.cons.injEq, true_and] at h
      exact absurd h (lineBreak_quote_ne layout (level + 1) m.1 _ _)
    | cons n ns => simpa [write, writeMembers] using h

mutual

/-- Written trees are told apart, and so is what follows them. -/
theorem write_append_inj (layout : Layout) (level : Nat) :
    (a : Json) → ∀ {b r s}, EndsNumber r → EndsNumber s →
      write layout level a ++ r = write layout level b ++ s → a = b ∧ r = s
  | .null, b, r, s, _, _, h => by
    -- the kind is told by the first character, so in each case the other tree is of the same kind
    cases b <;> cases kind_eq_of_write h
    exact ⟨rfl, List.append_cancel_left h⟩
  | .bool a, b, r, s, _, _, h => by
    cases b <;> cases kind_eq_of_write h
    next b =>
    cases a <;> cases b <;> simp [write] at h
    · exact ⟨rfl, h⟩
    · exact ⟨rfl, h⟩
  | .num n, b, r, s, hr, hs, h => by
    -- where a number ends is told by what comes after it
    cases b <;> cases kind_eq_of_write h
    next m =>
    obtain ⟨htext, hrest⟩ := number_append_inj n.areNumberChars_text m.areNumberChars_text hr hs h
    exact ⟨congrArg num (Number.text_injective (String.toList_inj.mp htext)), hrest⟩
  | .str t, b, r, s, _, _, h => by
    cases b <;> cases kind_eq_of_write h
    obtain ⟨rfl, hrest⟩ := quote_append_inj h
    exact ⟨rfl, hrest⟩
  | .arr xs, b, r, s, _, _, h => by
    -- the items agree, by the mutual statement on lists
    cases b <;> cases kind_eq_of_write h
    next ys =>
    obtain ⟨rfl, hrest⟩ := writeItems_append_inj layout level xs (writeItems_eq_of_write h)
    exact ⟨rfl, hrest⟩
  | .obj ms, b, r, s, _, _, h => by
    cases b <;> cases kind_eq_of_write h
    next ns =>
    obtain ⟨rfl, hrest⟩ := writeMembers_append_inj layout level ms (writeMembers_eq_of_write h)
    exact ⟨rfl, hrest⟩

theorem writeItems_append_inj (layout : Layout) (level : Nat) :
    (xs : List Json) → ∀ {ys r s},
      writeItems layout level xs ++ ']' :: r = writeItems layout level ys ++ ']' :: s →
        xs = ys ∧ r = s
  | [], [], r, s, h => ⟨rfl, (List.cons.inj (List.append_cancel_left h)).2⟩
  | [], y :: ys, r, s, h => by
    exact absurd h (lineBreak_close_ne layout level (by decide) _ _)
  | x :: xs, [], r, s, h => by
    exact absurd h.symm (lineBreak_close_ne layout level (by decide) _ _)
  | x :: xs, y :: ys, r, s, h => by
    -- the first items are written in front of rests that end them, so they agree, and then the
    -- rests
    simp only [writeItems, List.cons_append, List.append_assoc, List.cons.injEq, true_and,
      List.append_cancel_left_eq] at h
    obtain ⟨rfl, hitems⟩ := write_append_inj layout (level + 1) x
      (endsNumber_writeItems layout level xs r) (endsNumber_writeItems layout level ys s) h
    obtain ⟨rfl, hrest⟩ := writeItems_append_inj layout level xs hitems
    exact ⟨rfl, hrest⟩

theorem writeMembers_append_inj (layout : Layout) (level : Nat) :
    (ms : List (String × Json)) → ∀ {ns r s},
      writeMembers layout level ms ++ '}' :: r = writeMembers layout level ns ++ '}' :: s →
        ms = ns ∧ r = s
  | [], [], r, s, h => ⟨rfl, (List.cons.inj (List.append_cancel_left h)).2⟩
  | [], (_, _) :: ns, r, s, h => by
    exact absurd h (lineBreak_close_ne layout level (by decide) _ _)
  | (_, _) :: ms, [], r, s, h => by
    exact absurd h.symm (lineBreak_close_ne layout level (by decide) _ _)
  | (k, x) :: ms, (l, y) :: ns, r, s, h => by
    -- names are quoted, so they end where they say
    simp only [writeMembers, List.cons_append, List.append_assoc, List.cons.injEq, true_and,
      List.append_cancel_left_eq] at h
    obtain ⟨rfl, hvalue⟩ := quote_append_inj h
    obtain ⟨rfl, hmembers⟩ := write_append_inj layout (level + 1) x
      (endsNumber_writeMembers layout level ms r) (endsNumber_writeMembers layout level ns s)
      (List.append_cancel_left hvalue)
    obtain ⟨rfl, hrest⟩ := writeMembers_append_inj layout level ms hmembers
    exact ⟨rfl, hrest⟩

end

theorem compact_injective {a b : Json} (h : a.compact = b.compact) : a = b := by
  have hchars : write .compact 0 a = write .compact 0 b := String.ofList_injective h
  have hends : EndsNumber [] := by simp [EndsNumber]
  exact (write_append_inj .compact 0 a hends hends (by rw [hchars])).1

end Json

end Prospectus
