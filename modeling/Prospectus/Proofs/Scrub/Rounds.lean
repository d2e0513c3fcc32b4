import Prospectus.Proofs.Scrub.Row

/-!
# Rounds until nothing changes

A scrubber repeats a round until it changes nothing; the loop itself sets no bound. For a row of the
module table it repeats a longer step, which cleans the row and then goes through rounds of its own.
`Settles` is such a loop as it runs, together with the work that its steps report.

That the loops end is an amortised argument. A step that changes a text takes characters away, and
its work is charged to them (`Amortized`). Such a step can be repeated: the loop has one run, which
ends in the text that `settle` gives, and the loop is such a step again (`Amortized.settles`). So
loops can be nested, and the work of the inner one adds up over the rounds of the outer one.

The result is `Scrubber.loops_end`. For every scrubber, also where patterns match the empty text,
both loops end after one step for each character that is taken away and one more, at most, and what
they leave are characters of the text in their order.
-/

namespace Prospectus.Scrub

/-! ### Characters and bytes

The text of the program is measured in bytes and the loops are told by characters. Each character
has a byte at least, so what gets shorter in characters gets shorter in bytes. -/

theorem utf8ByteSize_ofList_cons (c : Char) (cs : List Char) :
    (String.ofList (c :: cs)).utf8ByteSize = c.utf8Size + (String.ofList cs).utf8ByteSize := by
  rw [String.ofList_cons, String.utf8ByteSize_append, String.utf8ByteSize_singleton]

/-- Every character that is taken away takes a byte with it at least. -/
theorem utf8ByteSize_add_length_le {cs ds : List Char} (h : ds.Sublist cs) :
    (String.ofList ds).utf8ByteSize + cs.length ≤ (String.ofList cs).utf8ByteSize + ds.length := by
  induction h with
  | slnil => exact Nat.le_refl _
  | cons c _ ih =>
    have hpos := c.utf8Size_pos
    rw [utf8ByteSize_ofList_cons, List.length_cons]
    omega
  | cons_cons c _ ih =>
    rw [utf8ByteSize_ofList_cons, utf8ByteSize_ofList_cons, List.length_cons, List.length_cons]
    omega

/-! ### Loops as they run

The loop as a relation, with no bound on its rounds: it goes on as long as the step changes the text
and ends with the first step that does not. The relation does not say that there is a run, or that
there is one only; both are to be proved. -/

/-- A step that counts as one, whatever it does. -/
def once (f : List Char → List Char) (cs : List Char) (n : Nat) (next : List Char) : Prop :=
  n = 1 ∧ next = f cs

/-- The loop that repeats a step until it changes nothing. `step cs n next` says that the step makes
`next` of `cs` with the work `n`; the work of the loop is that of all its steps, the last one
included. -/
inductive Settles (step : List Char → Nat → List Char → Prop) :
    List Char → Nat → List Char → Prop
  | last {cs n} : step cs n cs → Settles step cs n cs
  | more {cs m next n out} : step cs m next → next ≠ cs → Settles step next n out →
      Settles step cs (m + n) out

section

variable {step : List Char → Nat → List Char → Prop} {f g : List Char → List Char}
  {cs out : List Char} {m n w : Nat}

/-- One turn of the loop, where the step can do one thing only. Then so can the loop, as far as this
turn goes. -/
theorem settles_iff (hstep : ∀ k next, step cs k next ↔ k = m ∧ next = f cs) :
    Settles step cs n out ↔
      if f cs = cs then n = m ∧ out = cs else ∃ k, n = m + k ∧ Settles step (f cs) k out := by
  constructor
  · intro h
    -- the run stops at once or makes a first step, and the result of that step is known
    cases h with
    | last hlast =>
      obtain ⟨rfl, heq⟩ := (hstep _ _).mp hlast
      rw [if_pos heq.symm]
      exact ⟨rfl, rfl⟩
    | more hfirst hne hrest =>
      obtain ⟨rfl, rfl⟩ := (hstep _ _).mp hfirst
      rw [if_neg hne]
      exact ⟨_, rfl, hrest⟩
  · intro h
    split at h
    · next heq =>
      obtain ⟨rfl, rfl⟩ := h
      exact .last ((hstep _ _).mpr ⟨rfl, heq.symm⟩)
    · next hne =>
      obtain ⟨k, rfl, hrest⟩ := h
      exact .more ((hstep _ _).mpr ⟨rfl, rfl⟩) hne hrest

/-! ### Work that is paid for

The charge is one unit for each character that is taken away, and one more for the last step, which
finds nothing to do. A loop over steps of work `w` per character is a step of work `w + 1`: each
round but the last one takes a character away, which pays for the unit that the round has over. -/

/-- The step can do one thing only with every text: it makes `f` of it, which takes characters away,
and its work is at most `w` for each of them and one more. -/
structure Amortized (w : Nat) (step : List Char → Nat → List Char → Prop)
    (f : List Char → List Char) : Prop where
  deletes : Deletes f
  runs : ∀ cs, ∃ n, n + w * (f cs).length ≤ w * cs.length + 1 ∧
    ∀ k next, step cs k next ↔ k = n ∧ next = f cs

theorem amortized_once (h : Deletes f) : Amortized 0 (once f) f where
  deletes := h
  runs cs := ⟨1, by simp, fun _ _ => Iff.rfl⟩

/-- Taking characters away beforehand leaves less to be done, so the work is paid for by the text as
it was before. -/
theorem Amortized.after (h : Amortized w step f) (hg : Deletes g) :
    Amortized w (fun cs => step (g cs)) fun cs => f (g cs) where
  deletes := hg.comp h.deletes
  runs cs := by
    obtain ⟨n, hn, hstep⟩ := h.runs (g cs)
    have hle : w * (g cs).length ≤ w * cs.length := Nat.mul_le_mul_left w (hg cs).length_le
    exact ⟨n, by omega, hstep⟩

/-- A loop over such a step is such a step. Its run ends in what `settle` gives, which therefore has
rounds enough. -/
theorem Amortized.settles (h : Amortized w step f) :
    Amortized (w + 1) (Settles step) fun cs => settle f (cs.length + 1) cs where
  deletes := h.deletes.settle
  runs cs := by
    refine h.deletes.settle_induction (motive := fun cs out =>
      ∃ n, n + (w + 1) * out.length ≤ (w + 1) * cs.length + 1 ∧
        ∀ k next, Settles step cs k next ↔ k = n ∧ next = out) ?_ ?_ (Nat.le_succ cs.length)
    · -- the loop ends here, after the step that changes nothing
      intro cs hfix
      obtain ⟨n, hn, hstep⟩ := h.runs cs
      refine ⟨n, ?_, fun k next => ?_⟩
      · -- nothing is taken away, so the work is one at most
        rw [hfix] at hn
        omega
      · rw [settles_iff hstep, if_pos hfix]
    · rintro cs out hne ⟨n, hn, hrest⟩
      obtain ⟨m, hm, hstep⟩ := h.runs cs
      refine ⟨m + n, ?_, fun k next => ?_⟩
      · -- a character is taken away at least, and pays for the work that comes on top
        have hlt := (h.deletes.eq_self_or_shorter cs).resolve_left hne
        simp only [Nat.succ_mul] at hn ⊢
        omega
      · rw [settles_iff hstep, if_neg hne]
        constructor
        · rintro ⟨j, rfl, hj⟩
          obtain ⟨rfl, hnext⟩ := (hrest j next).mp hj
          exact ⟨rfl, hnext⟩
        · rintro ⟨rfl, hnext⟩
          exact ⟨n, rfl, (hrest n next).mpr ⟨rfl, hnext⟩⟩

end

/-! ### The loops of a scrubber

There are two of them. The first repeats rounds, each of which counts as one. The second repeats a
step that itself has the first loop in it, so its rounds cost more than one, and it is charged two
for each character. -/

/-- The loop that repeats `step` until it changes nothing ends for every text, in `result`, and
takes characters away only. -/
structure EndsByDeleting (step : List Char → List Char) (result : String → String) : Prop where
  /-- A step changes nothing or makes the text shorter, in characters and in bytes. -/
  shortens : ∀ cs, step cs = cs ∨ (step cs).length < cs.length ∧
    (String.ofList (step cs)).utf8ByteSize < (String.ofList cs).utf8ByteSize
  /-- The loop has one run: at most a step for each character taken away, and the last one. -/
  ends : ∀ text, ∃ n, n + (result text).length ≤ text.length + 1 ∧
    ∀ k out, Settles (once step) text.toList k out ↔ k = n ∧ out = (result text).toList
  /-- What a step leaves, and what the loop leaves, are characters of the text in their order. -/
  step_sublist : ∀ cs, (step cs).Sublist cs
  result_sublist : ∀ text, (result text).toList.Sublist text.toList

theorem endsByDeleting_of_deletes {step : List Char → List Char} {result : String → String}
    (h : Deletes step)
    (hresult : ∀ text, (result text).toList = settle step (text.toList.length + 1) text.toList) :
    EndsByDeleting step result where
  shortens cs := by
    -- a character that goes takes at least one byte with it
    rcases h.eq_self_or_shorter cs with heq | hlt
    · exact .inl heq
    · have hbytes := utf8ByteSize_add_length_le (h cs)
      exact .inr ⟨hlt, by omega⟩
  ends text := by
    obtain ⟨n, hn, hruns⟩ := (amortized_once h).settles.runs text.toList
    rw [← hresult] at hn
    simp only [String.length_toList] at hn
    refine ⟨n, by omega, fun k out => ?_⟩
    rw [hruns, hresult]
  step_sublist := h
  result_sublist text := by
    rw [hresult]
    exact h.settle text.toList

namespace Scrubber

/-- The step for a row of the module table: clean it, then scrub. -/
def rowStep (s : Scrubber) (row : List Char) : List Char := s.scrubChars (cleanRow row)

/-- The same step as it runs, with the number of its rounds. -/
def RowRuns (s : Scrubber) (row : List Char) : Nat → List Char → Prop :=
  Settles (once s.scrubOnce) (cleanRow row)

theorem deletes_rowStep (s : Scrubber) : Deletes s.rowStep :=
  deletes_cleanRow.comp s.deletes_scrubChars

/-- A row costs a round for each character that is taken away, and one more. -/
theorem amortized_rowRuns (s : Scrubber) : Amortized 1 s.RowRuns s.rowStep :=
  (amortized_once s.deletes_scrubOnce).settles.after deletes_cleanRow

/-- Both loops of a scrubber end for every text, at most after one step for each character that is
taken away and one more, and take characters away only. For a row, whose steps have rounds of their
own, the rounds of all steps together are at most two for each such character, and one more. -/
theorem loops_end (s : Scrubber) :
    EndsByDeleting s.scrubOnce s.scrub ∧ EndsByDeleting s.rowStep s.scrubRow ∧
      ∀ row, ∃ n, n + 2 * (s.scrubRow row).length ≤ 2 * row.length + 1 ∧
        ∀ k out, Settles s.RowRuns row.toList k out ↔ k = n ∧ out = (s.scrubRow row).toList := by
  have hscrub : ∀ text, (s.scrub text).toList = s.scrubChars text.toList :=
    fun _ => String.toList_ofList
  have hrow : ∀ row, (s.scrubRow row).toList =
      settle s.rowStep (row.toList.length + 1) row.toList :=
    fun _ => String.toList_ofList
  refine ⟨endsByDeleting_of_deletes s.deletes_scrubOnce hscrub,
    endsByDeleting_of_deletes s.deletes_rowStep hrow, fun row => ?_⟩
  -- the rows are cleaned in a loop of loops, whose steps the outer bound counts as well
  obtain ⟨n, hn, hruns⟩ := s.amortized_rowRuns.settles.runs row.toList
  rw [← hrow] at hn
  simp only [String.length_toList] at hn
  refine ⟨n, hn, fun k out => ?_⟩
  rw [hruns, hrow]

/-- The bound is met by a pattern that finds one character in each round. The other pattern also
matches the empty text. -/
example :
    let s : Scrubber := ⟨[], [.cat (.look .textStart) (.char (.folded (.one 'a'))),
      .loop (.char (.folded (.one 'b'))) true]⟩
    Scrubber.ofRules ⟨[], ["^a", "b*"]⟩ = .ok s ∧
      s.scrubOnce "aaa".toList = "aa".toList ∧ s.scrubOnce "aa".toList = "a".toList ∧
      s.scrubOnce "a".toList = [] ∧ s.scrubOnce [] = [] := by
  decide +kernel

end Scrubber

end Prospectus.Scrub
