import Mathlib.Data.List.TakeWhile
import Prospectus.Proofs.Pattern.Moves

/-!
# The search finds the leftmost match

The search keeps threads, each a match that has begun and what is left of the pattern. Two
invariants, each kept by one character and carried through the text by induction:

* *sound*: whatever completes a thread completes a match of the pattern (`Thread.Sound`), so what
  the search reports is a match (`span_of_find?`);
* *promised*: a match that begins at a position is known, followed by a thread, or still ahead
  (`Promised`), so the search reports a match that begins there or before (`find?_leftmost`).

The second needs the threads in the order in which they began: following them stops at the first
thread that can end, and of two threads with one rest only the first is kept.
-/

namespace Prospectus.Pattern

/-- The pattern matches from position `i` up to position `j` of a text that stands after `pre`. -/
def Span (p : Pattern) (pre text : List Char) (i j : Nat) : Prop :=
  ∃ x y z, text = x ++ y ++ z ∧ x.length = i ∧ x.length + y.length = j ∧
    p.Matches (pre ++ x) y z

/-! ### Following threads

Threads are followed in order. Each is asked for its moves, and the first that can end decides: its
start is reported, and the threads after it are given up, since they began no earlier. A thread
that can end still contributes the moves that it prefers to ending. -/

/-- A thread can end at once: what is left of its pattern has a move that ends, given the characters
before and after. -/
def Thread.Stops (before after : Option Char) (t : Thread) : Prop :=
  Move.stop ∈ movesAll before after t.rest

/-- A thread can take a character of a class and go on as `t'`. -/
def Thread.Steps (before after : Option Char) (t : Thread) (k : CharClass) (t' : Thread) : Prop :=
  t'.start = t.start ∧ Move.take k t'.rest ∈ movesAll before after t.rest

/-- The steps among some moves of a thread that began at `start`. -/
def takes (start : Nat) (ms : List Move) : List (CharClass × Thread) :=
  ms.filterMap fun
    | .stop => none
    | .take c rest => some (c, ⟨start, rest⟩)

theorem mem_takes {start : Nat} {ms : List Move} {k : CharClass} {t' : Thread} :
    (k, t') ∈ takes start ms ↔ t'.start = start ∧ Move.take k t'.rest ∈ ms := by
  rw [takes, List.mem_filterMap]
  constructor
  · rintro ⟨m, hm, h⟩
    cases m with
    | stop => cases h
    | take c rest =>
      cases h
      exact ⟨rfl, hm⟩
  · rintro ⟨rfl, hm⟩
    exact ⟨_, hm, rfl⟩

section

variable {before after : Option Char} {t : Thread} {ts : List Thread}

theorem follow_cons_of_stops (h : t.Stops before after) :
    follow before after (t :: ts) =
      (takes t.start ((movesAll before after t.rest).takeWhile (· != .stop)), some t.start) := by
  have hc : (movesAll before after t.rest).contains .stop := List.contains_iff_mem.mpr h
  simp only [follow, hc, if_true]
  rfl

theorem follow_cons_of_not_stops (h : ¬ t.Stops before after) :
    follow before after (t :: ts) =
      (takes t.start (movesAll before after t.rest) ++ (follow before after ts).1,
        (follow before after ts).2) := by
  have hc : (movesAll before after t.rest).contains .stop = false := by
    simpa [Thread.Stops] using h
  have hall : (movesAll before after t.rest).takeWhile (· != .stop) =
      movesAll before after t.rest := by
    refine List.takeWhile_eq_self_iff.mpr fun m hm => bne_iff_ne.mpr ?_
    rintro rfl
    exact h hm
  simp only [follow, hc, hall]
  rfl

/-- Every step that is collected belongs to a thread. -/
theorem exists_of_mem_follow {k : CharClass} {t' : Thread}
    (h : (k, t') ∈ (follow before after ts).1) : ∃ t ∈ ts, t.Steps before after k t' := by
  induction ts with
  | nil => cases h
  | cons t ts ih =>
    -- a thread that stops hides all those behind it, and its own moves up to the stop are kept
    by_cases hs : t.Stops before after
    · rw [follow_cons_of_stops hs] at h
      obtain ⟨hstart, hm⟩ := mem_takes.mp h
      exact ⟨t, by simp, hstart, (List.takeWhile_sublist _).mem hm⟩
    · rw [follow_cons_of_not_stops hs] at h
      rcases List.mem_append.mp h with h | h
      · exact ⟨t, by simp, mem_takes.mp h⟩
      · obtain ⟨u, hu, hstep⟩ := ih h
        exact ⟨u, by simp [hu], hstep⟩

/-- If no end is reported, no thread can end and all their steps are collected, in the order of the
threads. -/
theorem follow_of_stop_eq_none (h : (follow before after ts).2 = none) :
    ∀ t ∈ ts, ¬ t.Stops before after ∧
      ∀ k t', t.Steps before after k t' → (k, t') ∈ (follow before after ts).1 := by
  induction ts with
  | nil => simp
  | cons t ts ih =>
    -- nothing has stopped, so the first thread did not, and the result without it is none as well
    by_cases hs : t.Stops before after
    · rw [follow_cons_of_stops hs] at h
      cases h
    · rw [follow_cons_of_not_stops hs] at h ⊢
      intro u hu
      rcases List.mem_cons.mp hu with rfl | hu
      · exact ⟨hs, fun k t' hstep => List.mem_append_left _ (mem_takes.mpr hstep)⟩
      · obtain ⟨hu', hall⟩ := ih h u hu
        exact ⟨hu', fun k t' hstep => List.mem_append_right _ (hall k t' hstep)⟩

/-- If an end is reported, it is that of the first thread that can end. All steps of the threads
before it are collected, and none of the threads after it. -/
theorem follow_of_stop_eq_some {s : Nat} (h : (follow before after ts).2 = some s) :
    ∃ l t r, ts = l ++ t :: r ∧ t.start = s ∧ t.Stops before after ∧
      (∀ u ∈ l, ¬ u.Stops before after ∧
        ∀ k t', u.Steps before after k t' → (k, t') ∈ (follow before after ts).1) ∧
      ∀ k t', (k, t') ∈ (follow before after ts).1 →
        ∃ u ∈ l ++ [t], u.Steps before after k t' := by
  induction ts with
  | nil => cases h
  | cons t ts ih =>
    -- the thread that stops is the first one, or it lies among the others
    by_cases hs : t.Stops before after
    · rw [follow_cons_of_stops hs] at h ⊢
      refine ⟨[], t, ts, rfl, Option.some.inj h, hs, by simp, fun k t' hm => ?_⟩
      obtain ⟨hstart, hm⟩ := mem_takes.mp hm
      exact ⟨t, by simp, hstart, (List.takeWhile_sublist _).mem hm⟩
    · rw [follow_cons_of_not_stops hs] at h ⊢
      obtain ⟨l, t₀, r, rfl, hstart, hstop, hl, hcover⟩ := ih h
      refine ⟨t :: l, t₀, r, rfl, hstart, hstop, fun u hu => ?_, fun k t' hm => ?_⟩
      · -- the thread was passed over, so all of its moves are kept, and those of the others follow
        rcases List.mem_cons.mp hu with rfl | hu
        · exact ⟨hs, fun k t' hstep => List.mem_append_left _ (mem_takes.mpr hstep)⟩
        · obtain ⟨hu', hall⟩ := hl u hu
          exact ⟨hu', fun k t' hstep => List.mem_append_right _ (hall k t' hstep)⟩
      · -- and a move that is kept comes from this thread or from one that the induction hypothesis
        -- names
        rcases List.mem_append.mp hm with hm | hm
        · exact ⟨t, by simp, mem_takes.mp hm⟩
        · obtain ⟨u, hu, hstep⟩ := hcover k t' hm
          exact ⟨u, by rw [List.cons_append]; exact List.mem_cons_of_mem _ hu, hstep⟩

/-- Steps come in the order of their threads. -/
theorem follow_sorted (h : ts.Pairwise fun a b => a.start ≤ b.start) :
    (follow before after ts).1.Pairwise fun a b => a.2.start ≤ b.2.start := by
  have htakes : ∀ (n : Nat) (ms : List Move),
      (takes n ms).Pairwise fun a b => a.2.start ≤ b.2.start := by
    intro n ms
    refine List.pairwise_of_forall_mem_list fun a ha b hb => ?_
    rw [(mem_takes.mp ha).1, (mem_takes.mp hb).1]
  induction ts with
  | nil => exact .nil
  | cons t ts ih =>
    obtain ⟨ht, hts⟩ := List.pairwise_cons.mp h
    -- moves of one thread have one start, and those of later threads do not start before it
    by_cases hs : t.Stops before after
    · rw [follow_cons_of_stops hs]
      exact htakes _ _
    · rw [follow_cons_of_not_stops hs]
      refine List.pairwise_append.mpr ⟨htakes _ _, ih hts, fun a ha b hb => ?_⟩
      obtain ⟨u, hu, hstart, -⟩ := exists_of_mem_follow hb
      rw [(mem_takes.mp ha).1, hstart]
      exact ht u hu

end

/-! ### One character further

After a character, threads that have the same rest of the pattern behave alike from then on, so one
of them is enough. The first is kept, which is the one that began earliest. This is what keeps the
search linear in the text, and it is the point at which order matters. -/

theorem distinct_sublist (ts : List Thread) : (distinct ts).Sublist ts := by
  induction ts with
  | nil => exact .slnil
  | cons t ts ih => exact (List.filter_sublist.trans ih).cons_cons t

/-- Of each rest that threads have, the first thread is kept. As threads stand in the order in which
they began, it is the one that began first. -/
theorem exists_mem_distinct {ts : List Thread} (h : ts.Pairwise fun a b => a.start ≤ b.start) :
    ∀ t ∈ ts, ∃ t' ∈ distinct ts, t'.rest = t.rest ∧ t'.start ≤ t.start := by
  induction ts with
  | nil => simp
  | cons a ts ih =>
    obtain ⟨ha, hts⟩ := List.pairwise_cons.mp h
    intro t ht
    -- the thread itself is kept, or another with the same rest, which stands further to the front
    rcases List.mem_cons.mp ht with rfl | ht
    · exact ⟨t, by simp [distinct], rfl, Nat.le_refl _⟩
    · obtain ⟨t', ht', hrest, hstart⟩ := ih hts t ht
      by_cases heq : t'.rest = a.rest
      · exact ⟨a, by simp [distinct], heq ▸ hrest, ha t ht⟩
      · refine ⟨t', List.mem_cons_of_mem _ (List.mem_filter.mpr ⟨ht', ?_⟩), hrest, hstart⟩
        exact bne_iff_ne.mpr heq

section

variable {c : Char} {steps : List (CharClass × Thread)}

theorem exists_of_mem_advance {t : Thread} (h : t ∈ advance c steps) :
    ∃ k, (k, t) ∈ steps ∧ k.contains c = true := by
  obtain ⟨⟨k, t'⟩, hm, rfl⟩ := List.mem_map.mp ((distinct_sublist _).mem h)
  obtain ⟨hm, hk⟩ := List.mem_filter.mp hm
  exact ⟨k, hm, hk⟩

theorem taken_sorted (h : steps.Pairwise fun a b => a.2.start ≤ b.2.start) :
    ((steps.filter fun s => s.1.contains c).map Prod.snd).Pairwise
      fun a b => a.start ≤ b.start := by
  rw [List.pairwise_map]
  exact h.filter _

theorem advance_sorted (h : steps.Pairwise fun a b => a.2.start ≤ b.2.start) :
    (advance c steps).Pairwise fun a b => a.start ≤ b.start :=
  (taken_sorted h).sublist (distinct_sublist _)

theorem exists_mem_advance (h : steps.Pairwise fun a b => a.2.start ≤ b.2.start) {k : CharClass}
    {t : Thread} (hm : (k, t) ∈ steps) (hk : k.contains c = true) :
    ∃ t' ∈ advance c steps, t'.rest = t.rest ∧ t'.start ≤ t.start :=
  exists_mem_distinct (taken_sorted h) t
    (List.mem_map.mpr ⟨(k, t), List.mem_filter.mpr ⟨hm, hk⟩, rfl⟩)

end

/-! ### What a place asks of a thread

Whether a thread can end, and where it can go, is told from the character before and the character
after. With the theory of moves this becomes a statement about matches: a thread is viable if what
is left of its pattern matches from the place on. -/

theorem stops_iff {u cs : List Char} {t : Thread} :
    t.Stops u.getLast? cs.head? ↔ MatchesAll t.rest u [] cs := by
  rw [matchesAll_iff, Thread.Stops, stop_mem_iff u cs, List.nil_append]

theorem matchesAll_of_steps {u w v : List Char} {c : Char} {t t' : Thread} {k : CharClass}
    (h : t.Steps u.getLast? (some c) k t') (hk : k.contains c = true)
    (hm : MatchesAll t'.rest (u ++ [c]) w v) : MatchesAll t.rest u (c :: w) v :=
  matchesAll_iff.mpr ⟨_, h.2, .take hk hm⟩

/-- What is left of the pattern of a thread matches from the place on, up to some later place. -/
def Thread.Viable (u cs : List Char) (t : Thread) : Prop :=
  ∃ w v, cs = w ++ v ∧ MatchesAll t.rest u w v

theorem Thread.Viable.stops {u : List Char} {t : Thread} (h : t.Viable u []) :
    t.Stops u.getLast? none := by
  obtain ⟨w, v, hwv, hm⟩ := h
  obtain ⟨rfl, rfl⟩ := List.append_eq_nil_iff.mp hwv.symm
  exact stops_iff.mpr hm

/-- A viable thread can end, or goes on to a viable thread. The move is the one that leads to the
match. -/
theorem Thread.Viable.step {u cs : List Char} {c : Char} {t : Thread} (h : t.Viable u (c :: cs)) :
    t.Stops u.getLast? (some c) ∨ ∃ k t', t.Steps u.getLast? (some c) k t' ∧
      k.contains c = true ∧ t'.Viable (u ++ [c]) cs := by
  obtain ⟨w, v, hwv, hm⟩ := h
  -- with nothing left to take the thread stops here; otherwise its match begins with a move
  cases w with
  | nil =>
    obtain rfl : c :: cs = v := hwv
    exact .inl (stops_iff.mpr hm)
  | cons d w =>
    obtain ⟨rfl, rfl⟩ := List.cons.inj hwv
    obtain ⟨m, hmoves, hl⟩ := matchesAll_iff.mp hm
    cases hl with
    | @take k rest _ _ _ _ hk hw =>
      exact .inr ⟨k, ⟨t.start, rest⟩, ⟨rfl, hmoves⟩, hk, w, v, rfl, hw⟩

/-! ### The search, one place at a time

The loop of the search, one turn of it. A new thread begins at each place as long as no match is
known; the threads are followed; and the search goes on, or stops when there is nothing left that
could give a better match. -/

/-- The threads at a place: as long as no match is known, one begins there. -/
def entered (p : Pattern) (position : Nat) (threads : List Thread) (known : Option (Nat × Nat)) :
    List Thread :=
  if known.isNone then threads ++ [⟨position, [p]⟩] else threads

/-- The match that is known once the threads at a place have been followed. A thread that can end
gives a match that is preferred to the one known so far, since only threads that began no later are
left. -/
def reported (position : Nat) (known : Option (Nat × Nat)) (stop : Option Nat) :
    Option (Nat × Nat) :=
  match stop with
  | some start => some (start, position)
  | none => known

theorem search_nil (p : Pattern) (before : Option Char) (position : Nat) (threads : List Thread)
    (known : Option (Nat × Nat)) :
    search p before position threads known [] =
      reported position known (follow before none (entered p position threads known)).2 := rfl

theorem search_cons (p : Pattern) (before : Option Char) (position : Nat) (threads : List Thread)
    (known : Option (Nat × Nat)) (c : Char) (cs : List Char) :
    search p before position threads known (c :: cs) =
      let followed := follow before (some c) (entered p position threads known)
      let known' := reported position known followed.2
      let threads' := advance c followed.1
      if threads'.isEmpty && known'.isSome then known'
      else search p (some c) (position + 1) threads' known' cs := rfl

theorem mem_entered {p : Pattern} {position : Nat} {threads : List Thread}
    {known : Option (Nat × Nat)} {t : Thread} (h : t ∈ entered p position threads known) :
    t ∈ threads ∨ (known = none ∧ t = ⟨position, [p]⟩) := by
  rw [entered] at h
  split at h
  · next hk =>
    rcases List.mem_append.mp h with h | h
    · exact .inl h
    · exact .inr ⟨Option.isNone_iff_eq_none.mp hk, List.mem_singleton.mp h⟩
  · exact .inl h

theorem subset_entered {p : Pattern} {position : Nat} {threads : List Thread}
    {known : Option (Nat × Nat)} {t : Thread} (h : t ∈ threads) :
    t ∈ entered p position threads known := by
  rw [entered]
  split
  · exact List.mem_append_left _ h
  · exact h

/-! ### What is reported is a match

The first invariant. It is about each thread by itself: whatever completes it completes a match from
where it began. One step keeps it, since a step takes a character that the class contains, and a
thread that can end is complete. -/

/-- Whatever completes the thread completes a match of the pattern, in the text `u ++ cs` after
`pre` of which `u` has been passed. The match begins where the thread began. -/
def Thread.Sound (p : Pattern) (pre u cs : List Char) (t : Thread) : Prop :=
  ∃ x y, u = x ++ y ∧ x.length = t.start ∧
    ∀ w v, cs = w ++ v → MatchesAll t.rest (pre ++ u) w v → p.Matches (pre ++ x) (y ++ w) v

theorem sound_new (p : Pattern) (pre u cs : List Char) :
    (⟨u.length, [p]⟩ : Thread).Sound p pre u cs :=
  ⟨u, [], by simp, rfl, fun _ _ _ hm => by simpa using matchesAll_singleton_iff.mp hm⟩

theorem Thread.Sound.step {p : Pattern} {pre u cs : List Char} {c : Char} {t t' : Thread}
    {k : CharClass} (h : t.Sound p pre u (c :: cs))
    (hs : t.Steps (pre ++ u).getLast? (some c) k t') (hk : k.contains c = true) :
    t'.Sound p pre (u ++ [c]) cs := by
  obtain ⟨x, y, rfl, hx, hm⟩ := h
  refine ⟨x, y ++ [c], by simp, hx.trans hs.1.symm, fun w v hwv hrest => ?_⟩
  rw [← List.append_assoc] at hrest
  have hcw := hm (c :: w) v (by simp [hwv]) (matchesAll_of_steps hs hk hrest)
  simpa using hcw

theorem Thread.Sound.span {p : Pattern} {pre u cs : List Char} {t : Thread}
    (h : t.Sound p pre u cs) (hs : t.Stops (pre ++ u).getLast? cs.head?) :
    Span p pre (u ++ cs) t.start u.length := by
  obtain ⟨x, y, rfl, hx, hm⟩ := h
  refine ⟨x, y, cs, rfl, hx, by simp, ?_⟩
  simpa using hm [] cs rfl (stops_iff.mp hs)

/-- Following sound threads reports a match. -/
theorem span_of_reported {p : Pattern} {pre u cs : List Char} {threads : List Thread}
    {known : Option (Nat × Nat)} {i j : Nat} (ht : ∀ t ∈ threads, t.Sound p pre u cs)
    (hk : ∀ i j, known = some (i, j) → Span p pre (u ++ cs) i j)
    (h : reported u.length known
      (follow (pre ++ u).getLast? cs.head? (entered p u.length threads known)).2 = some (i, j)) :
    Span p pre (u ++ cs) i j := by
  -- what is reported was known before, or a thread ends here: an old one, or the one that enters
  cases hstop : (follow (pre ++ u).getLast? cs.head? (entered p u.length threads known)).2 with
  | none =>
    rw [hstop] at h
    exact hk i j h
  | some s =>
    rw [hstop] at h
    obtain ⟨rfl, rfl⟩ := Prod.mk.inj (Option.some.inj h)
    obtain ⟨l, t, r, hl, rfl, hs, -⟩ := follow_of_stop_eq_some hstop
    have hmem : t ∈ entered p u.length threads known := by simp [hl]
    rcases mem_entered hmem with hold | ⟨-, rfl⟩
    · exact (ht t hold).span hs
    · exact (sound_new p pre u cs).span hs

/-- Sound threads lead to matches only. The match that is known so far is one by hypothesis, and
each step may replace it by another. -/
theorem span_of_search {p : Pattern} {pre u cs : List Char} {threads : List Thread}
    {known : Option (Nat × Nat)} {i j : Nat} (ht : ∀ t ∈ threads, t.Sound p pre u cs)
    (hk : ∀ i j, known = some (i, j) → Span p pre (u ++ cs) i j)
    (h : search p (pre ++ u).getLast? u.length threads known cs = some (i, j)) :
    Span p pre (u ++ cs) i j := by
  induction cs generalizing u threads known with
  | nil =>
    -- at the end of the text the report is all there is
    rw [search_nil] at h
    exact span_of_reported ht hk h
  | cons c cs ih =>
    rw [search_cons] at h
    have hk' := fun i j => span_of_reported (i := i) (j := j) ht hk
    dsimp only at h
    split at h
    · exact hk' i j h
    · have happ : u ++ c :: cs = (u ++ [c]) ++ cs := by simp
      have hlast : (pre ++ (u ++ [c])).getLast? = some c := by simp
      have hlen : (u ++ [c]).length = u.length + 1 := by simp
      rw [happ] at hk' ⊢
      -- what is known and what is followed stay sound one character further
      rw [← hlast, ← hlen] at h
      refine ih (fun t' ht' => ?_) (fun i j hij => hk' i j ?_) h
      · obtain ⟨k, hm, hkc⟩ := exists_of_mem_advance ht'
        obtain ⟨t, hmem, hstep⟩ := exists_of_mem_follow hm
        rw [hlast] at hstep
        rcases mem_entered hmem with hold | ⟨-, rfl⟩
        · exact (ht t hold).step hstep hkc
        · exact (sound_new p pre u (c :: cs)).step hstep hkc
      · rw [← hij]
        simp

theorem span_of_find? {p : Pattern} {pre text : List Char} {i j : Nat}
    (h : p.find? pre.getLast? text = some (i, j)) : Span p pre text i j := by
  refine span_of_search (u := []) (fun t ht => absurd ht List.not_mem_nil) (fun i j hij => ?_)
    (by rw [List.append_nil]; exact h)
  cases hij

/-! ### The leftmost match is found

The second invariant. It is about one match that begins at `st`, and about all threads together, as
a match may be taken over from one thread by an earlier one with the same rest. What is promised is
that no match that begins later is reported in its place. Together with the first invariant the
search then reports a match that begins as far left as any. -/

/-- The threads stand in the order in which they began, none of them after the position or after
the match that is known. -/
structure Ordered (position : Nat) (threads : List Thread) (known : Option (Nat × Nat)) : Prop where
  sorted : threads.Pairwise fun a b => a.start ≤ b.start
  begun : ∀ t ∈ threads, t.start ≤ position
  best : ∀ s e, known = some (s, e) → ∀ t ∈ threads, t.start ≤ s

theorem Ordered.entered {p : Pattern} {position : Nat} {threads : List Thread}
    {known : Option (Nat × Nat)} (h : Ordered position threads known) :
    Ordered position (entered p position threads known) known := by
  -- sorted, begun no later than here, and none of them after the match that is known
  refine ⟨?_, fun t ht => ?_, fun s e hk t ht => ?_⟩
  · rw [Pattern.entered]
    split
    · refine List.pairwise_append.mpr ⟨h.sorted, List.pairwise_singleton _ _, fun a ha b hb => ?_⟩
      obtain rfl := List.mem_singleton.mp hb
      exact h.begun a ha
    · exact h.sorted
  · rcases mem_entered ht with hold | ⟨-, rfl⟩
    · exact h.begun t hold
    · exact Nat.le_refl _
  · rcases mem_entered ht with hold | ⟨hnone, -⟩
    · exact h.best s e hk t hold
    · rw [hnone] at hk
      cases hk

/-- In order, a thread began no later than those after it. -/
theorem start_le_of_mem {l r : List Thread} {t t₀ : Thread}
    (h : (l ++ t :: r).Pairwise fun a b => a.start ≤ b.start) (ht₀ : t₀ ∈ t :: r) :
    t.start ≤ t₀.start := by
  rcases List.mem_cons.mp ht₀ with rfl | ht₀
  · exact Nat.le_refl _
  · exact (List.pairwise_cons.mp (List.pairwise_append.mp h).2.1).1 t₀ ht₀

/-- Threads stay in order over one character. -/
theorem Ordered.step {position : Nat} {threads : List Thread} {known : Option (Nat × Nat)}
    (h : Ordered position threads known) (p : Pattern) (before after : Option Char) (c : Char) :
    let followed := follow before after (Pattern.entered p position threads known)
    Ordered (position + 1) (advance c followed.1) (reported position known followed.2) := by
  intro followed
  have he : Ordered position (Pattern.entered p position threads known) known := h.entered
  refine ⟨advance_sorted (follow_sorted he.sorted), fun t' ht' => ?_, fun s e hk t' ht' => ?_⟩
  · obtain ⟨k, hm, -⟩ := exists_of_mem_advance ht'
    obtain ⟨t, ht, hstart, -⟩ := exists_of_mem_follow hm
    have := he.begun t ht
    omega
  · obtain ⟨k, hm, -⟩ := exists_of_mem_advance ht'
    -- a match that was known stays the best one; a new one ends a thread, and those behind it are
    -- gone
    cases hstop : followed.2 with
    | none =>
      rw [hstop] at hk
      obtain ⟨t, ht, hstart, -⟩ := exists_of_mem_follow hm
      have := he.best s e hk t ht
      omega
    | some s' =>
      -- the steps that are kept come from threads up to the one that ends
      rw [hstop] at hk
      obtain ⟨rfl, rfl⟩ := Prod.mk.inj (Option.some.inj hk)
      obtain ⟨l, t, r, hl, rfl, -, -, hcover⟩ := follow_of_stop_eq_some hstop
      obtain ⟨v, hv, hstart, -⟩ := hcover k t' hm
      have hsorted := he.sorted
      rw [hl] at hsorted
      rw [hstart]
      rcases List.mem_append.mp hv with hv | hv
      · exact (List.pairwise_append.mp hsorted).2.2 v hv t (by simp)
      · rw [List.mem_singleton.mp hv]

/-- A viable thread that cannot end goes on, or an earlier one with the same rest does. -/
theorem Thread.Viable.advance {u cs : List Char} {c : Char} {t : Thread}
    {steps : List (CharClass × Thread)} (h : t.Viable u (c :: cs))
    (hstop : ¬ t.Stops u.getLast? (some c))
    (hall : ∀ k t', t.Steps u.getLast? (some c) k t' → (k, t') ∈ steps)
    (hsorted : steps.Pairwise fun a b => a.2.start ≤ b.2.start) :
    ∃ t' ∈ advance c steps, t'.start ≤ t.start ∧ t'.Viable (u ++ [c]) cs := by
  rcases h.step with hs | ⟨k, t', hstep, hk, w, v, hwv, hm⟩
  · exact absurd hs hstop
  · obtain ⟨t'', hmem, hrest, hstart⟩ := exists_mem_advance hsorted (hall k t' hstep) hk
    refine ⟨t'', hmem, ?_, w, v, hwv, hrest ▸ hm⟩
    rw [← hstep.1]
    exact hstart

/-- A match that begins at `st` is not lost: one that begins there or before is known, or a thread
follows it, or none is known and it is still ahead. -/
def Promised (p : Pattern) (u : List Char) (position : Nat) (threads : List Thread)
    (known : Option (Nat × Nat)) (cs : List Char) (st : Nat) : Prop :=
  (∃ s e, known = some (s, e) ∧ s ≤ st) ∨ (∃ t ∈ threads, t.start ≤ st ∧ t.Viable u cs) ∨
    (known = none ∧
      ∃ x y z, cs = x ++ y ++ z ∧ position + x.length ≤ st ∧ p.Matches (u ++ x) y z)

section

variable {p : Pattern} {u cs : List Char} {c : Char} {position st : Nat} {threads : List Thread}
  {known : Option (Nat × Nat)}

/-- Where a match begins, a thread is entered. -/
theorem Promised.entered (h : Promised p u position threads known cs st) :
    (∃ s e, known = some (s, e) ∧ s ≤ st) ∨
    (∃ t ∈ entered p position threads known, t.start ≤ st ∧ t.Viable u cs) ∨
    (known = none ∧ position ≤ st ∧ ∃ c x y z, cs = c :: x ++ y ++ z ∧
      position + 1 + x.length ≤ st ∧ p.Matches (u ++ [c] ++ x) y z) := by
  -- what was promised is known, is followed by a thread, or begins later in the text
  rcases h with hk | ⟨t, ht, hst, hv⟩ | ⟨rfl, x, y, z, rfl, hst, hm⟩
  · exact .inl hk
  · exact .inr (.inl ⟨t, subset_entered ht, hst, hv⟩)
  · -- a match that begins here is that of the thread that enters
    cases x with
    | nil =>
      refine .inr (.inl ⟨⟨position, [p]⟩, by simp [Pattern.entered], hst, y, z, rfl, ?_⟩)
      exact matchesAll_singleton_iff.mpr (by simpa using hm)
    | cons c x =>
      rw [List.length_cons] at hst
      exact .inr (.inr ⟨rfl, by omega, c, x, y, z, rfl, by omega, by simpa using hm⟩)

/-- A promise is kept over one character. -/
theorem Promised.step (ho : Ordered position threads known)
    (h : Promised p u position threads known (c :: cs) st) :
    let followed := follow u.getLast? (some c) (Pattern.entered p position threads known)
    Promised p (u ++ [c]) (position + 1) (advance c followed.1)
      (reported position known followed.2) cs st := by
  intro followed
  have he : Ordered position (Pattern.entered p position threads known) known := ho.entered
  have hsorted : followed.1.Pairwise fun a b => a.2.start ≤ b.2.start := follow_sorted he.sorted
  cases hstop : followed.2 with
  | none =>
    -- no thread ends here, so each promise is handed on by one step
    rcases h.entered with hk | ⟨t, ht, hst, hv⟩ | ⟨hk, -, d, x, y, z, hd, hst, hm⟩
    · exact .inl hk
    · obtain ⟨hns, hall⟩ := follow_of_stop_eq_none hstop t ht
      obtain ⟨t', ht', hstart, hv'⟩ := hv.advance hns hall hsorted
      exact .inr (.inl ⟨t', ht', Nat.le_trans hstart hst, hv'⟩)
    · obtain ⟨rfl, rfl⟩ := List.cons.inj hd
      exact .inr (.inr ⟨hk, x, y, z, rfl, hst, hm⟩)
  | some s =>
    obtain ⟨l, t, r, hl, rfl, -, hpast, -⟩ := follow_of_stop_eq_some hstop
    have hmem : t ∈ Pattern.entered p position threads known := by simp [hl]
    have hknown : t.start ≤ st → Promised p (u ++ [c]) (position + 1) (advance c followed.1)
        (reported position known (some t.start)) cs st :=
      fun hst => .inl ⟨t.start, position, rfl, hst⟩
    -- a thread ends here, and its match is known from now on; it may be the promised one or a
    -- better
    rcases h.entered with ⟨s, e, hk, hst⟩ | ⟨t₀, ht₀, hst, hv⟩ | ⟨-, hst, -⟩
    · exact hknown (Nat.le_trans (he.best s e hk t hmem) hst)
    · -- a thread before the one that ends goes on, the others began after it
      rw [hl] at ht₀
      rcases List.mem_append.mp ht₀ with ht₀ | ht₀
      · obtain ⟨hns, hall⟩ := hpast t₀ ht₀
        obtain ⟨t', ht', hstart, hv'⟩ := hv.advance hns hall hsorted
        exact .inr (.inl ⟨t', ht', Nat.le_trans hstart hst, hv'⟩)
      · exact hknown (Nat.le_trans (start_le_of_mem (hl ▸ he.sorted) ht₀) hst)
    · exact hknown (Nat.le_trans (he.begun t hmem) hst)

/-- At the end of the text a promise is a match that is reported. -/
theorem Promised.reported_of_end (ho : Ordered position threads known)
    (h : Promised p u position threads known [] st) :
    ∃ s e, reported position known
      (follow u.getLast? none (Pattern.entered p position threads known)).2 = some (s, e) ∧
        s ≤ st := by
  have he : Ordered position (Pattern.entered p position threads known) known := ho.entered
  cases hstop : (follow u.getLast? none (Pattern.entered p position threads known)).2 with
  | none =>
    -- at the end of the text a thread that can still match has to end
    rcases h.entered with hk | ⟨t, ht, -, hv⟩ | ⟨-, -, d, x, y, z, hd, -⟩
    · exact hk
    · exact absurd hv.stops (follow_of_stop_eq_none hstop t ht).1
    · cases hd
  | some s =>
    obtain ⟨l, t, r, hl, rfl, -, hpast, -⟩ := follow_of_stop_eq_some hstop
    have hmem : t ∈ Pattern.entered p position threads known := by simp [hl]
    refine ⟨t.start, position, rfl, ?_⟩
    rcases h.entered with ⟨s, e, hk, hst⟩ | ⟨t₀, ht₀, hst, hv⟩ | ⟨-, -, d, x, y, z, hd, -⟩
    · exact Nat.le_trans (he.best s e hk t hmem) hst
    · rw [hl] at ht₀
      rcases List.mem_append.mp ht₀ with ht₀ | ht₀
      · exact absurd hv.stops (hpast t₀ ht₀).1
      · exact Nat.le_trans (start_le_of_mem (hl ▸ he.sorted) ht₀) hst
    · cases hd

/-- A promise is a match that the search reports. The induction is on the text that is left, with
one step for each character. -/
theorem Promised.search (ho : Ordered position threads known)
    (h : Promised p u position threads known cs st) :
    ∃ s e, search p u.getLast? position threads known cs = some (s, e) ∧ s ≤ st := by
  induction cs generalizing u position threads known with
  | nil =>
    -- nothing is left to read, so the promise is kept now or never
    rw [search_nil]
    exact h.reported_of_end ho
  | cons c cs ih =>
    have hkept := Promised.step ho h
    have hord := ho.step p u.getLast? (some c) c
    rw [search_cons]
    dsimp only at hkept hord ⊢
    split
    · next hdone =>
      -- the search breaks off when no thread is left and a match is known
      obtain ⟨hempty, hsome⟩ := Bool.and_eq_true_iff.mp hdone
      rw [List.isEmpty_iff.mp hempty] at hkept
      rcases hkept with hk | ⟨t, ht, -⟩ | ⟨hk, -⟩
      · exact hk
      · cases ht
      · rw [hk] at hsome
        cases hsome
    · have hlast : (u ++ [c]).getLast? = some c := by simp
      have hfound := ih hord hkept
      rw [hlast] at hfound
      exact hfound

end

/-- The search finds a match that begins no later than any other. Which of several matches with the
same beginning it finds is up to the preferences in the pattern, and nothing is said about that
here. -/
theorem find?_leftmost {p : Pattern} {pre text : List Char} {i j : Nat} (h : Span p pre text i j) :
    ∃ i' j', p.find? pre.getLast? text = some (i', j') ∧ i' ≤ i := by
  obtain ⟨x, y, z, rfl, rfl, -, hm⟩ := h
  have ho : Ordered 0 [] none := ⟨.nil, by simp, by simp⟩
  exact Promised.search ho (.inr (.inr ⟨rfl, x, y, z, rfl, by simp, hm⟩))

/-- The search fails exactly where there is no match. -/
theorem find?_eq_none_iff {p : Pattern} {pre text : List Char} :
    p.find? pre.getLast? text = none ↔ ∀ i j, ¬ Span p pre text i j := by
  constructor
  · intro h i j hs
    obtain ⟨i', j', hfind, -⟩ := find?_leftmost hs
    rw [h] at hfind
    cases hfind
  · intro h
    cases hfind : p.find? pre.getLast? text with
    | none => rfl
    | some ij => exact absurd (span_of_find? hfind) (h ij.1 ij.2)

/-- The search of a whole text tells whether a pattern occurs in it. -/
theorem occursIn_iff {p : Pattern} {text : List Char} :
    p.occursIn text = true ↔ p.Occurs text := by
  have hfind : p.find? none text = none ↔ ∀ i j, ¬ Span p [] text i j :=
    @find?_eq_none_iff p [] text
  rw [occursIn, Option.isSome_iff_ne_none, Ne, hfind]
  push Not
  constructor
  · rintro ⟨i, j, x, y, z, rfl, -, -, hm⟩
    exact ⟨x, y, z, rfl, hm⟩
  · rintro ⟨x, y, z, rfl, hm⟩
    exact ⟨_, _, x, y, z, rfl, rfl, rfl, hm⟩

end Prospectus.Pattern
