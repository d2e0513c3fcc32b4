import Mathlib.Tactic.FinCases
import Prospectus.Pattern.Reader

/-!
# Reading an escaped text

An escaped text is an expression for just that text: a backslash stands before each character that
would stand for something else (`escaped`). The reader takes one character of the text, with its
backslash if it has one, in one step (`run_items_escaped`), and the steps for the other signs that
the program puts into its own expressions are beside it. What was read is a sequence, and so is the
pattern that is meant (`toPattern?_ofReversed`).
-/

namespace Prospectus.Pattern

open Reader

/-! ### One step of the reader

The reader keeps what it has read so far in reverse, and a bound on the steps that it may still
take. Each lemma is one turn of its loop, in the form in which the turns are put together: a state
with a certain beginning becomes the state without it, with one more thing read and one step less.
-/

namespace Reader

variable {steps : Nat} {done : List Written} {a : Written} {c : Char} {cs : List Char}
  {names : List (List Char)}

@[simp] theorem run_peek? (s : ReaderState) : peek?.run s = some (s.rest.head?, s) := rfl

@[simp] theorem run_next (c : Char) (cs : List Char) (verbose : Bool) :
    next.run ⟨c :: cs, verbose, names⟩ = some (c, ⟨cs, verbose, names⟩) := rfl

@[simp] theorem run_space : space.run ⟨cs, false, names⟩ = some ((), ⟨cs, false, names⟩) := rfl

theorem run_taken_of_head?_ne {verbose : Bool} (h : cs.head? ≠ some c) :
    (taken [c]).run ⟨cs, verbose, names⟩ = some (false, ⟨cs, verbose, names⟩) := by
  have hnone : Text.afterLead? [c] cs = none := by
    cases cs with
    | nil => rfl
    | cons d cs =>
      have hne : c ≠ d := fun heq => h (congrArg some heq.symm)
      simp [Text.afterLead?, hne]
  simp [taken, hnone]

@[simp] theorem run_taken_cons (c : Char) (cs : List Char) (verbose : Bool) :
    (taken [c]).run ⟨c :: cs, verbose, names⟩ = some (true, ⟨cs, verbose, names⟩) := by
  simp [taken, Text.afterLead?]

theorem escaped_cons (c : Char) (cs : List Char) :
    escaped (c :: cs) = (if c ∈ metaChars then ['\\', c] else [c]) ++ escaped cs :=
  List.flatMap_cons

theorem length_le_escaped (cs : List Char) : cs.length ≤ (escaped cs).length := by
  induction cs with
  | nil => exact Nat.le_refl _
  | cons c cs ih =>
    rw [escaped_cons, List.length_append, List.length_cons]
    split
    · simp only [List.length_cons]
      omega
    · simp only [List.length_cons]
      omega

section Turns

-- a turn of the loop is computed, so its equations are rules for the lemmas that follow
attribute [local simp] items

theorem run_items_literal (hc : c ∉ metaChars) :
    (items (steps + 1) done).run ⟨c :: cs, false, names⟩ =
      (items steps (.literal c false :: done)).run ⟨cs, false, names⟩ := by
  simp only [metaChars, List.mem_cons, List.not_mem_nil, or_false, not_or] at hc
  simp [hc]

theorem run_items_backslash (hc : c ∈ metaChars) :
    (items (steps + 1) done).run ⟨'\\' :: c :: cs, false, names⟩ =
      (items steps (.literal c false :: done)).run ⟨cs, false, names⟩ := by
  have hescape : escape.run ⟨c :: cs, false, names⟩ =
      some (.literal c false, ⟨cs, false, names⟩) := by
    fin_cases hc <;> rfl
  simp [hescape, ofEscape]

/-- An escaped text is read character by character. One step is spent for each character of the
text, whether or not it has a backslash. -/
theorem run_items_escaped (text : List Char) :
    (items (steps + text.length) done).run ⟨escaped text ++ cs, false, names⟩ =
      (items steps ((text.map fun c => Written.literal c false).reverse ++ done)).run
        ⟨cs, false, names⟩ := by
  -- one item for each character, and for a character that means something two characters are read
  induction text generalizing done with
  | nil => rfl
  | cons c text ih =>
    rw [List.map_cons, List.reverse_cons, List.append_assoc, List.singleton_append, ← ih,
      escaped_cons, List.append_assoc, List.length_cons, ← Nat.add_assoc]
    by_cases hc : c ∈ metaChars
    · rw [if_pos hc]
      exact run_items_backslash hc
    · rw [if_neg hc]
      exact run_items_literal hc

theorem run_items_caret : (items (steps + 1) done).run ⟨'^' :: cs, false, names⟩ =
    (items steps (.look .caret :: done)).run ⟨cs, false, names⟩ := by
  simp

theorem run_items_dollar : (items (steps + 1) done).run ⟨'$' :: cs, false, names⟩ =
    (items steps (.look .dollar :: done)).run ⟨cs, false, names⟩ := by
  simp

theorem run_items_decimal : (items (steps + 1) done).run ⟨'\\' :: 'd' :: cs, false, names⟩ =
    (items steps (.named .decimal false :: done)).run ⟨cs, false, names⟩ := by
  have hescape : escape.run ⟨'d' :: cs, false, names⟩ =
      some (.named .decimal false, ⟨cs, false, names⟩) := rfl
  simp [hescape, ofEscape]

/-- The end of the text is the end of a sequence. -/
theorem run_items_nil : (items (steps + 1) done).run ⟨[], false, names⟩ =
    some (ofReversed done, ⟨[], false, names⟩) := by
  simp

theorem run_items_plus (ha : repeatable (a :: done) = true) (hcs : cs.head? ≠ some '?') :
    (items (steps + 1) (a :: done)).run ⟨'+' :: cs, false, names⟩ =
      (items steps (.repeated a 1 none true :: done)).run ⟨cs, false, names⟩ := by
  simp [repeatBySign, repeatLast, run_taken_of_head?_ne hcs, ha]

theorem run_decimal_digit (hc : c.isDigit = true) :
    decimal.run ⟨c :: '\x7d' :: cs, false, names⟩ =
      some (some (c.toNat - '0'.toNat), ⟨'\x7d' :: cs, false, names⟩) := by
  have hrange : 48 ≤ c.toNat ∧ c.toNat ≤ 57 := Char.isDigit_iff_toNat.mp hc
  have hblank : Text.isBlank c = false := by
    simp [Text.isBlank]
    omega
  have hbrace : Text.isBlank '\x7d' = false := by decide
  have hdigit : '\x7d'.isDigit = false := by decide
  have hsmall : c.toNat - 48 < 4294967296 := by omega
  simp [decimal, blanks, digits, nextSpaced, hblank, hbrace, hc, hdigit, hsmall]

/-- A number of one digit in braces repeats what was read last. -/
theorem run_items_count (hc : c.isDigit = true) (ha : repeatable (a :: done) = true)
    (hcs : cs.head? ≠ some '?') :
    (items (steps + 1) (a :: done)).run ⟨'\x7b' :: c :: '\x7d' :: cs, false, names⟩ =
      (items steps (.repeated a (c.toNat - '0'.toNat) (some (c.toNat - '0'.toNat)) true ::
        done)).run ⟨cs, false, names⟩ := by
  have hcomma : (taken [',']).run ⟨'\x7d' :: cs, false, names⟩ =
      some (false, ⟨'\x7d' :: cs, false, names⟩) := run_taken_of_head?_ne (by simp)
  simp [repeatByCount, repeatLast, run_decimal_digit hc, hcomma, run_taken_of_head?_ne hcs, ha]

end Turns

/-- A sequence that goes on to the end of the text is the whole expression. -/
theorem whole_eq_some
    (h : (items (3 * cs.length + 2) []).run ⟨cs, false, []⟩ = some (a, ⟨[], false, names⟩)) :
    whole cs = some a := by
  have hbar : (taken ['|']).run ⟨[], false, names⟩ = some (false, ⟨[], false, names⟩) :=
    run_taken_of_head?_ne (by simp)
  have hchoice : (choice (3 * cs.length + 3)).run ⟨cs, false, []⟩ =
      some (a, ⟨[], false, names⟩) := by
    rw [choice]
    simp [h, hbar]
  rw [whole, hchoice]
  rfl

/-! ### Sequences

What was read is a sequence in reverse. Put the right way round it means the sequence of what the
parts mean, provided that none of them changes the flags for those after it, and it is one level
deeper than its deepest part. -/

/-- Where each part keeps the flags, a sequence of parts means the sequence of what they mean. -/
theorem toPattern?_ofReversed [Dialect] {fs : Flags} {ps : List Pattern}
    (h : List.Forall₂ (fun a p => a.toPattern? fs = some (p, fs)) done.reverse ps) :
    (ofReversed done).toPattern? fs = some (sequence ps, fs) := by
  rw [ofReversed]
  generalize done.reverse = parts at h
  cases h with
  | nil => rfl
  | @cons a p rest ps ha hrest =>
    show (ofReversed.go a rest).toPattern? fs = _
    induction hrest generalizing a p with
    | nil => exact ha
    | cons hb _ ih =>
      simp [ofReversed.go, Written.toPattern?, ha, ih hb, sequence]

theorem catDepth_le_depth (a : Written) : a.catDepth ≤ a.depth := by
  cases a with
  | cat a b => exact Nat.le_succ _
  | _ => exact Nat.le_refl _

/-- A sequence is one level, however long it is. -/
theorem depth_ofReversed_le {n : Nat} (h : ∀ a ∈ done, a.depth ≤ n) :
    (ofReversed done).depth ≤ n + 1 := by
  -- the parts are joined in pairs from the right; each pair is a level, but a chain of them is one
  have hgo : ∀ rest : List Written, ∀ a : Written, (∀ b ∈ a :: rest, b.depth ≤ n) →
      (ofReversed.go a rest).catDepth ≤ n ∧ (ofReversed.go a rest).depth ≤ n + 1 := by
    intro rest
    induction rest with
    | nil =>
      intro a ha
      have ha : a.depth ≤ n := ha a List.mem_cons_self
      exact ⟨(catDepth_le_depth a).trans ha, Nat.le_succ_of_le ha⟩
    | cons b rest ih =>
      intro a ha
      obtain ⟨ha, hrest⟩ := List.forall_mem_cons.mp ha
      have hmax : max a.depth (ofReversed.go b rest).catDepth ≤ n :=
        Nat.max_le.mpr ⟨ha, (ih b hrest).1⟩
      exact ⟨hmax, Nat.succ_le_succ hmax⟩
  rw [ofReversed]
  cases hparts : done.reverse with
  | nil => exact Nat.zero_le _
  | cons a rest =>
    refine (hgo rest a fun b hb => h b ?_).2
    rwa [← List.mem_reverse, hparts]

end Reader

end Prospectus.Pattern
