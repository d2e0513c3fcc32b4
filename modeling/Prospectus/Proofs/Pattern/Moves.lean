import Prospectus.Pattern.Search
import Prospectus.Proofs.Pattern.Matches

/-!
# Moves follow matches

The search never looks at `Pattern.Matches`: it only asks a pattern for its moves at a place and
takes one character at a time. This file says that nothing is lost or gained by that. A move
*leads to* a match if it ends where the match is empty, or takes its first character and goes on
with patterns that match the others (`Move.LeadsTo`). Then

    matches_iff : p.Matches u s v ↔ ∃ m ∈ p.moves u.getLast? (s ++ v).head?, m.LeadsTo u s v

and the same for patterns that follow one another (`matchesAll_iff`). From left to right the proof
is by induction on the match: a repetition that went through its pattern without taking a character
is left out. From right to left it is by induction on the pattern.
-/

namespace Prospectus.Pattern

/-! ### Where a move leads

A move ends the pattern or takes one character, and what is left after that is a list of patterns.
Going on with further patterns puts these behind what a move has left over; where a move ends at
once, the moves of the further patterns take its place. -/

/-- A move that leads to a match of a text between `u` and `v`: it ends if the text is empty, or
takes the first character and goes on with what matches the others. -/
inductive Move.LeadsTo : Move → List Char → List Char → List Char → Prop
  | stop {u v} : Move.stop.LeadsTo u [] v
  | take {k rest u c w v} : k.contains c = true → MatchesAll rest (u ++ [c]) w v →
      (Move.take k rest).LeadsTo u (c :: w) v

theorem stop_mem_iff {ms : List Move} (u v : List Char) :
    Move.stop ∈ ms ↔ ∃ m ∈ ms, m.LeadsTo u [] v := by
  constructor
  · intro h
    exact ⟨_, h, .stop⟩
  · rintro ⟨m, hm, h⟩
    cases h
    exact hm

theorem mem_goOn {after : List Pattern} {next : Unit → List Move} {ms : List Move} {m : Move} :
    m ∈ goOn after next ms ↔
      (∃ k rest, Move.take k rest ∈ ms ∧ m = .take k (rest ++ after)) ∨
        (Move.stop ∈ ms ∧ m ∈ next ()) := by
  induction ms generalizing next with
  | nil => simp [goOn]
  | cons m' ms ih =>
    -- a stop leaves the choice to what comes next, any other move goes on after itself
    cases m' with
    | stop => simp [goOn, ih, or_comm]
    | take k rest =>
      simp only [goOn, List.mem_cons, ih]
      constructor
      · -- the move is the first one, one of the others, or one of what comes after a stop
        rintro (rfl | ⟨k', rest', hm, rfl⟩ | ⟨hs, hn⟩)
        · exact .inl ⟨k, rest, .inl rfl, rfl⟩
        · exact .inl ⟨k', rest', .inr hm, rfl⟩
        · exact .inr ⟨.inr hs, hn⟩
      · rintro (⟨k', rest', h | hm, rfl⟩ | ⟨h | hs, hn⟩)
        · cases h
          exact .inl rfl
        · exact .inr (.inl ⟨k', rest', hm, rfl⟩)
        · cases h
        · exact .inr (.inr ⟨hs, hn⟩)

/-- Going on with patterns leads to what a move and the patterns after it match together, or, where
the moves can end, to what the next moves lead to. The first part of such a match is not empty, as
its move has taken a character. -/
theorem exists_goOn_iff {after : List Pattern} {next : Unit → List Move} {ms : List Move}
    {u s v : List Char} :
    (∃ m ∈ goOn after next ms, m.LeadsTo u s v) ↔
      (∃ s₁ s₂, s₁ ≠ [] ∧ s = s₁ ++ s₂ ∧ (∃ m ∈ ms, m.LeadsTo u s₁ (s₂ ++ v)) ∧
        MatchesAll after (u ++ s₁) s₂ v) ∨
      (Move.stop ∈ ms ∧ ∃ m ∈ next (), m.LeadsTo u s v) := by
  constructor
  · rintro ⟨m, hm, hl⟩
    rcases mem_goOn.mp hm with ⟨k, rest, hk, rfl⟩ | ⟨hs, hn⟩
    · cases hl with
      | take hc hw =>
        -- the rest of the move and the patterns after it share what is left of the text
        obtain ⟨w₁, w₂, rfl, hrest, hafter⟩ := matchesAll_append_iff.mp hw
        exact .inl ⟨_ :: w₁, w₂, by simp, rfl, ⟨_, hk, .take hc hrest⟩, by simpa using hafter⟩
    · exact .inr ⟨hs, m, hn, hl⟩
  · rintro (⟨s₁, s₂, hne, rfl, ⟨m, hm, hl⟩, hafter⟩ | ⟨hs, m, hn, hl⟩)
    · cases hl with
      -- a stop takes nothing, but the part before the cut is not empty
      | stop => exact absurd rfl hne
      | take hc hw =>
        refine ⟨_, mem_goOn.mpr (.inl ⟨_, _, hm, rfl⟩), ?_⟩
        exact .take hc (matchesAll_append_iff.mpr ⟨_, s₂, rfl, hw, by simpa using hafter⟩)
    · exact ⟨m, mem_goOn.mpr (.inr ⟨hs, hn⟩), hl⟩

/-! ### Matches and moves

A repetition is where care is needed. Its pattern may match without taking a character, and going
round in that way would not end, so such a move is dropped. No match is lost by it: a repetition
that has gone round without a character matches what it matches without that round. -/

/-- A loop can end, or go through its pattern by taking a character. -/
theorem mem_moves_loop {a : Pattern} {g : Bool} {before after : Option Char} {m : Move} :
    m ∈ (loop a g).moves before after ↔
      m = .stop ∨ m ∈ goOn [loop a g] (fun _ => []) (a.moves before after) := by
  rw [moves]
  split <;> simp [or_comm]

/-- Every match is led to by a move. The induction is on the match; in the case of a repetition, a
round that took nothing is skipped, and the induction hypothesis for the rounds after it is used. -/
theorem Matches.exists_move {p : Pattern} {u s v : List Char} (h : p.Matches u s v) :
    ∃ m ∈ p.moves u.getLast? (s ++ v).head?, m.LeadsTo u s v := by
  induction h with
  | empty => exact ⟨_, by simp [moves], .stop⟩
  | char hc => exact ⟨_, by simp [moves], .take hc .nil⟩
  | look hl => exact ⟨_, by simp [moves, hl], .stop⟩
  | @cat a b u s t v _ hb iha ihb =>
    rw [List.append_assoc, moves]
    refine exists_goOn_iff.mpr ?_
    -- a first part without a character has stopped, and the move is one of the second part
    cases s with
    | nil => exact .inr ⟨(stop_mem_iff u (t ++ v)).mpr iha, by simpa using ihb⟩
    | cons c s =>
      exact .inl ⟨c :: s, t, by simp, rfl, iha, matchesAll_singleton_iff.mpr hb⟩
  | altLeft _ ih =>
    obtain ⟨m, hm, hl⟩ := ih
    exact ⟨m, List.mem_append_left _ hm, hl⟩
  | altRight _ ih =>
    obtain ⟨m, hm, hl⟩ := ih
    exact ⟨m, List.mem_append_right _ hm, hl⟩
  | loopNone => exact ⟨.stop, mem_moves_loop.mpr (.inl rfl), .stop⟩
  | @loopMore a g u s t v _ ht iha iht =>
    cases s with
    | nil =>
      -- going round without a character comes to the same as not going round
      simpa using iht
    | cons c s =>
      have hmore : ∃ m ∈ goOn [loop a g] (fun _ => [])
          (a.moves u.getLast? (c :: s ++ t ++ v).head?), m.LeadsTo u (c :: s ++ t) v :=
        exists_goOn_iff.mpr
          (.inl ⟨c :: s, t, by simp, rfl, by simpa using iha, matchesAll_singleton_iff.mpr ht⟩)
      obtain ⟨m, hm, hl⟩ := hmore
      exact ⟨m, mem_moves_loop.mpr (.inr hm), hl⟩
  | @oneOrMore a g u s t v _ ht iha iht =>
    rw [moves]
    refine exists_goOn_iff.mpr ?_
    -- if the first round takes nothing, the move is one that the loop makes after it
    cases s with
    | cons c s =>
      exact .inl ⟨c :: s, t, by simp, rfl, by simpa using iha, matchesAll_singleton_iff.mpr ht⟩
    | nil =>
      have hstop : Move.stop ∈ a.moves u.getLast? (t ++ v).head? :=
        (stop_mem_iff u (t ++ v)).mpr iha
      cases t with
      | nil => exact .inr ⟨hstop, _, by simp, .stop⟩
      | cons c t =>
        -- the loop goes on from the same moves, so its first one is a move here as well
        rw [List.append_nil] at iht
        obtain ⟨m, hm, hl⟩ := iht
        rcases mem_moves_loop.mp hm with rfl | hm
        · cases hl
        · rcases exists_goOn_iff.mp ⟨m, hm, hl⟩ with hmore | ⟨-, m', hm', -⟩
          · exact .inl hmore
          · cases hm'

/-- A move leads to matches only. The induction is on the pattern, and for a repetition on the text
beside, which each round makes shorter. -/
theorem matches_of_move {p : Pattern} {u s v : List Char}
    (h : ∃ m ∈ p.moves u.getLast? (s ++ v).head?, m.LeadsTo u s v) : p.Matches u s v := by
  induction p generalizing u s v with
  | empty =>
    obtain ⟨m, hm, hl⟩ := h
    obtain rfl : m = .stop := by simpa [moves] using hm
    cases hl
    exact .empty
  | char k =>
    obtain ⟨m, hm, hl⟩ := h
    obtain rfl : m = .take k [] := by simpa [moves] using hm
    cases hl with
    | take hc hw =>
      obtain rfl := matchesAll_nil_iff.mp hw
      exact .char hc
  | look l =>
    obtain ⟨m, hm, hl⟩ := h
    rw [moves] at hm
    split at hm
    · next hh =>
      obtain rfl : m = .stop := by simpa using hm
      cases hl
      exact .look hh
    · simp at hm
  | cat a b iha ihb =>
    rw [moves] at h
    -- either the first part takes something and the second follows, or it stops and the second
    -- moves
    rcases exists_goOn_iff.mp h with ⟨s₁, s₂, -, rfl, ha, hb⟩ | ⟨hs, hb⟩
    · exact .cat (iha (by simpa using ha)) (matchesAll_singleton_iff.mp hb)
    · have ha : a.Matches u [] (s ++ v) := iha ((stop_mem_iff u (s ++ v)).mp hs)
      exact .cat ha (by simpa using ihb hb)
  | alt a b iha ihb =>
    obtain ⟨m, hm, hl⟩ := h
    rcases List.mem_append.mp hm with hm | hm
    · exact .altLeft (iha ⟨m, hm, hl⟩)
    · exact .altRight (ihb ⟨m, hm, hl⟩)
  | loop a g ih =>
    obtain ⟨m, hm, hl⟩ := h
    -- the loop is left at once, or a move of its body takes something and the loop follows it
    rcases mem_moves_loop.mp hm with rfl | hm
    · cases hl
      exact .loopNone
    · rcases exists_goOn_iff.mp ⟨m, hm, hl⟩ with ⟨s₁, s₂, -, rfl, ha, hb⟩ | ⟨-, m', hm', -⟩
      · exact .loopMore (ih (by simpa using ha)) (matchesAll_singleton_iff.mp hb)
      · cases hm'
  | oneOrMore a g ih =>
    rw [moves] at h
    -- the body takes something, or it stops; the loop behind it then stops as well
    rcases exists_goOn_iff.mp h with ⟨s₁, s₂, -, rfl, ha, hb⟩ | ⟨hs, m, hm, hl⟩
    · exact .oneOrMore (ih (by simpa using ha)) (matchesAll_singleton_iff.mp hb)
    · obtain rfl : m = .stop := by simpa using hm
      cases hl
      exact .oneOrMore (s := []) (ih ((stop_mem_iff u ([] ++ v)).mp hs)) .loopNone

/-- The moves of a pattern lead to its matches. -/
theorem matches_iff {p : Pattern} {u s v : List Char} :
    p.Matches u s v ↔ ∃ m ∈ p.moves u.getLast? (s ++ v).head?, m.LeadsTo u s v :=
  ⟨Matches.exists_move, matches_of_move⟩

/-- The moves of patterns that follow one another lead to what they match together. -/
theorem matchesAll_iff {ps : List Pattern} {u s v : List Char} :
    MatchesAll ps u s v ↔ ∃ m ∈ movesAll u.getLast? (s ++ v).head? ps, m.LeadsTo u s v := by
  induction ps generalizing u s v with
  | nil =>
    rw [matchesAll_nil_iff, movesAll]
    constructor
    · rintro rfl
      exact ⟨.stop, by simp, .stop⟩
    · rintro ⟨m, hm, hl⟩
      obtain rfl : m = .stop := by simpa using hm
      cases hl
      rfl
  | cons p ps ih =>
    rw [movesAll, exists_goOn_iff, matchesAll_cons_iff]
    constructor
    · rintro ⟨s₁, s₂, rfl, hp, hps⟩
      have hmoves := matches_iff.mp hp
      -- a pattern that takes nothing stops, and the text is left to the others
      cases s₁ with
      | nil => exact .inr ⟨(stop_mem_iff u (s₂ ++ v)).mpr hmoves, ih.mp (by simpa using hps)⟩
      | cons c s₁ => exact .inl ⟨c :: s₁, s₂, by simp, rfl, by simpa using hmoves, hps⟩
    · rintro (⟨s₁, s₂, -, rfl, hm, hps⟩ | ⟨hs, hps⟩)
      · exact ⟨s₁, s₂, rfl, matches_iff.mpr (by simpa using hm), hps⟩
      · have hp : p.Matches u [] (s ++ v) := matches_iff.mpr ((stop_mem_iff u (s ++ v)).mp hs)
        exact ⟨[], s, rfl, hp, by simpa using ih.mpr hps⟩

end Prospectus.Pattern
