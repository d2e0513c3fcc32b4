import Prospectus.Scrub.Basic

/-!
# Steps that take characters away

Every stage of a scrubber only takes characters away (`Deletes`). Two things follow for stages that
run one after the other.

* They settle. A round that changes a text makes it shorter, so as many rounds as there are
  characters end in a text that one more round leaves as it is (`settle_settled`). What else is
  known of the text that is left comes from the same induction (`Deletes.settle_induction`).
* They leave a text as it is together iff each of them does (`Deletes.comp_eq_self_iff`,
  `Deletes.foldl_eq_self_iff`): what one stage took away, no later one could put back.
-/

namespace Prospectus.Scrub

/-- The step only takes characters away: what it leaves of a text are characters of the text in
their order. -/
def Deletes (step : List Char → List Char) : Prop :=
  ∀ cs, (step cs).Sublist cs

/-! ### Stages one after the other

A stage that takes characters away gives a sublist, and a sublist of the same length is the list
itself. So if stages together leave a text as it is, the first of them has taken nothing away, and
then neither have the others. -/

section

variable {f g : List Char → List Char}

theorem Deletes.comp (hf : Deletes f) (hg : Deletes g) : Deletes fun cs => g (f cs) :=
  fun cs => (hg (f cs)).trans (hf cs)

/-- Two stages together leave a text as it is iff each of them does. A stage that had taken
something away would have left less than the whole, and the other could only take more. -/
theorem Deletes.comp_eq_self_iff (hf : Deletes f) (hg : Deletes g) {cs : List Char} :
    g (f cs) = cs ↔ f cs = cs ∧ g cs = cs := by
  constructor
  · intro h
    have hle := (hg (f cs)).length_le
    rw [h] at hle
    have hfix : f cs = cs := (hf cs).eq_of_length_le hle
    rw [hfix] at h
    exact ⟨hfix, h⟩
  · rintro ⟨hfix, h⟩
    rw [hfix, h]

variable {α : Type} {stage : α → List Char → List Char}

theorem Deletes.foldl (h : ∀ a, Deletes (stage a)) (l : List α) :
    Deletes fun cs => l.foldl (fun cs a => stage a cs) cs := by
  induction l with
  | nil => exact fun cs => .refl cs
  | cons a l ih => exact (h a).comp ih

/-- All stages together leave a text as it is iff each of them does. -/
theorem Deletes.foldl_eq_self_iff (h : ∀ a, Deletes (stage a)) {l : List α} {cs : List Char} :
    l.foldl (fun cs a => stage a cs) cs = cs ↔ ∀ a ∈ l, stage a cs = cs := by
  induction l with
  | nil => simp
  | cons b l ih =>
    rw [List.forall_mem_cons, ← ih]
    exact (h b).comp_eq_self_iff (Deletes.foldl h l)

end

/-! ### Repeating a step

With the number of characters as a bound on the rounds, the bound is never what ends the loop. The
induction principle has that built in: proofs about repeated steps have a case for the text that is
left alone and a case for one more round, and none for running out of rounds. -/

section

variable {step : List Char → List Char}

/-- A step that takes characters away changes nothing or makes the text shorter. -/
theorem Deletes.eq_self_or_shorter (h : Deletes step) (cs : List Char) :
    step cs = cs ∨ (step cs).length < cs.length := by
  rcases Nat.lt_or_ge (step cs).length cs.length with hlt | hge
  · exact .inr hlt
  · exact .inl ((h cs).eq_of_length_le hge)

/-- Induction along the rounds, for a text and what is left of it: a text that a round leaves as it
is, and a round more. With as many rounds as there are characters none is missing. -/
theorem Deletes.settle_induction (h : Deletes step) {motive : List Char → List Char → Prop}
    (last : ∀ cs, step cs = cs → motive cs cs)
    (more : ∀ cs out, step cs ≠ cs → motive (step cs) out → motive cs out)
    {steps : Nat} {cs : List Char} (hsteps : cs.length ≤ steps) :
    motive cs (Scrub.settle step steps cs) := by
  induction steps generalizing cs with
  | zero =>
    -- without a round left there is no character left, and nothing to change
    obtain rfl : cs = [] := List.eq_nil_of_length_eq_zero (Nat.le_zero.mp hsteps)
    exact last [] (List.sublist_nil.mp (h []))
  | succ steps ih =>
    rw [Scrub.settle]
    split
    · next heq => exact last cs heq
    · next hne =>
      -- a round is used up, and so is a character
      have hlt := (h.eq_self_or_shorter cs).resolve_left hne
      exact more cs _ hne (ih (by omega))

theorem Deletes.settle (h : Deletes step) :
    Deletes fun cs => Scrub.settle step (cs.length + 1) cs := by
  intro cs
  refine h.settle_induction (motive := fun cs out => out.Sublist cs) ?_ ?_ (Nat.le_succ cs.length)
  · intro cs _
    exact .refl cs
  · intro cs out _ ih
    exact ih.trans (h cs)

/-- After as many rounds as there are characters, one more changes nothing. Each round but the last
one has taken a character. -/
theorem settle_settled (h : Deletes step) {steps : Nat} {cs : List Char}
    (hsteps : cs.length ≤ steps) : step (settle step steps cs) = settle step steps cs := by
  refine h.settle_induction (motive := fun _ out => step out = out) ?_ ?_ hsteps
  · intro cs heq
    exact heq
  · intro cs out _ ih
    exact ih

/-- A text that the step leaves as it is settles at once. -/
theorem settle_of_settled {steps : Nat} {cs : List Char} (h : step cs = cs) :
    settle step steps cs = cs := by
  cases steps with
  | zero => rfl
  | succ steps => rw [settle, if_pos h]

end

end Prospectus.Scrub
