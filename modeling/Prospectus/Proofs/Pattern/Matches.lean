import Mathlib.Data.List.Forall2
import Prospectus.Pattern.Basic

/-!
# What composed patterns match

`Pattern.Matches` has one rule for every way to build a pattern. The patterns of the scrubber are
sequences, so what they match is read off part by part: `MatchesAll` says that patterns match one
after the other, and

    matches_sequence_iff : (sequence ps).Matches u s v ↔ MatchesAll ps u s v
    matches_literalAnyCase_iff : (literalAnyCase l).Matches u s v ↔ List.Forall₂ SameLetter l s
-/

namespace Prospectus.Pattern

/-! ### Patterns that follow one another

A sequence is nested to the right and ends with the empty pattern. `MatchesAll` forgets the nesting:
it is the relation of a list of patterns, with one step for each. Each part sees the whole text
around it, since an assertion may look back into what the parts before it have matched. -/

/-- The patterns match the text one after the other, where it stands between `u` and `v`. What a
pattern has matched belongs to the text in front of the next one. -/
inductive MatchesAll : List Pattern → List Char → List Char → List Char → Prop
  | nil {u v} : MatchesAll [] u [] v
  | cons {p ps u s t v} : p.Matches u s (t ++ v) → MatchesAll ps (u ++ s) t v →
      MatchesAll (p :: ps) u (s ++ t) v

theorem matchesAll_nil_iff {u s v : List Char} : MatchesAll [] u s v ↔ s = [] := by
  constructor
  · intro h
    cases h
    rfl
  · rintro rfl
    exact .nil

theorem matchesAll_cons_iff {p : Pattern} {ps : List Pattern} {u s v : List Char} :
    MatchesAll (p :: ps) u s v ↔
      ∃ s₁ s₂, s = s₁ ++ s₂ ∧ p.Matches u s₁ (s₂ ++ v) ∧ MatchesAll ps (u ++ s₁) s₂ v := by
  constructor
  · intro h
    cases h with
    | cons hp hps => exact ⟨_, _, rfl, hp, hps⟩
  · rintro ⟨s₁, s₂, rfl, hp, hps⟩
    exact .cons hp hps

theorem matchesAll_singleton_iff {p : Pattern} {u s v : List Char} :
    MatchesAll [p] u s v ↔ p.Matches u s v := by
  constructor
  · intro h
    obtain ⟨s₁, s₂, rfl, hp, hnil⟩ := matchesAll_cons_iff.mp h
    obtain rfl := matchesAll_nil_iff.mp hnil
    simpa using hp
  · intro h
    exact matchesAll_cons_iff.mpr ⟨s, [], by simp, by simpa using h, .nil⟩

theorem matchesAll_append_iff {ps qs : List Pattern} {u s v : List Char} :
    MatchesAll (ps ++ qs) u s v ↔
      ∃ s₁ s₂, s = s₁ ++ s₂ ∧ MatchesAll ps u s₁ (s₂ ++ v) ∧ MatchesAll qs (u ++ s₁) s₂ v := by
  induction ps generalizing u s with
  | nil =>
    constructor
    · intro h
      exact ⟨[], s, rfl, .nil, by simpa using h⟩
    · rintro ⟨s₁, s₂, rfl, hnil, hqs⟩
      obtain rfl := matchesAll_nil_iff.mp hnil
      simpa using hqs
  | cons p ps ih =>
    rw [List.cons_append, matchesAll_cons_iff]
    constructor
    · -- the first pattern takes `s₁`; what follows it is cut in two by the induction hypothesis
      rintro ⟨s₁, t, rfl, hp, ht⟩
      obtain ⟨s₂, s₃, rfl, hps, hqs⟩ := ih.mp ht
      refine ⟨s₁ ++ s₂, s₃, by simp, ?_, by simpa using hqs⟩
      exact .cons (by simpa using hp) hps
    · -- and the piece of the longer list begins with what the first pattern takes
      rintro ⟨t, s₃, rfl, ht, hqs⟩
      obtain ⟨s₁, s₂, rfl, hp, hps⟩ := matchesAll_cons_iff.mp ht
      refine ⟨s₁, s₂ ++ s₃, by simp, by simpa using hp, ?_⟩
      exact ih.mpr ⟨s₂, s₃, rfl, hps, by simpa using hqs⟩

/-- A sequence matches what its patterns match one after the other. It is nested to the right, so
the induction is on the list. -/
theorem matches_sequence_iff {ps : List Pattern} {u s v : List Char} :
    (sequence ps).Matches u s v ↔ MatchesAll ps u s v := by
  induction ps generalizing u s with
  | nil =>
    rw [matchesAll_nil_iff, sequence]
    constructor
    · intro h
      cases h
      rfl
    · rintro rfl
      exact .empty
  | cons p ps ih =>
    -- the last of the patterns stands alone, without an empty pattern behind it
    cases ps with
    | nil => exact matchesAll_singleton_iff.symm
    | cons q qs =>
      rw [sequence, matchesAll_cons_iff]
      constructor
      · intro h
        cases h with
        | cat hp hps => exact ⟨_, _, rfl, hp, ih.mp hps⟩
      · rintro ⟨s₁, s₂, rfl, hp, hps⟩
        exact .cat hp (ih.mpr hps)
      · simp

/-! ### Characters as they are and in any case

A class contains a character or it does not, so a pattern for one character matches texts of that
one length. In any case, a character stands for all that simple folding sends to the same one; some
letters have three or four such variants, and a few have variants beyond ASCII. -/

theorem matches_char_iff {k : CharClass} {u s v : List Char} :
    (char k).Matches u s v ↔ ∃ c, k.contains c = true ∧ s = [c] := by
  constructor
  · intro h
    cases h with
    | char hc => exact ⟨_, hc, rfl⟩
  · rintro ⟨c, hc, rfl⟩
    exact .char hc

theorem contains_one_iff {c d : Char} :
    (CharClass.one c).contains d = true ↔ d = c := by
  simp only [CharClass.one, CharClass.contains, Bool.and_eq_true, decide_eq_true_eq]
  rw [← Char.toNat_inj]
  omega

theorem matches_exactly_iff {c : Char} {u s v : List Char} :
    (exactly c).Matches u s v ↔ s = [c] := by
  rw [exactly, matches_char_iff]
  constructor
  · rintro ⟨d, hd, rfl⟩
    rw [contains_one_iff.mp hd]
  · rintro rfl
    exact ⟨c, contains_one_iff.mpr rfl, rfl⟩

/-- Two characters are the same or variants of each other under simple case folding. -/
def SameLetter (c d : Char) : Prop := d = c ∨ c ∈ Text.caseVariants d

theorem contains_folded_iff {c d : Char} :
    (CharClass.folded (.one c)).contains d = true ↔ SameLetter c d := by
  rw [CharClass.contains, Bool.or_eq_true, List.any_eq_true, SameLetter, contains_one_iff]
  constructor
  · rintro (h | ⟨e, he, hc⟩)
    · exact .inl h
    · rw [contains_one_iff] at hc
      exact .inr (hc ▸ he)
  · rintro (h | h)
    · exact .inl h
    · exact .inr ⟨c, h, contains_one_iff.mpr rfl⟩

/-- A text in any case matches letter by letter. -/
theorem matches_literalAnyCase_iff {l u s v : List Char} :
    (literalAnyCase l).Matches u s v ↔ List.Forall₂ SameLetter l s := by
  rw [literalAnyCase, matches_sequence_iff]
  induction l generalizing u s with
  | nil => rw [List.map_nil, matchesAll_nil_iff, List.forall₂_nil_left_iff]
  | cons c l ih =>
    rw [List.map_cons, matchesAll_cons_iff, List.forall₂_cons_left_iff]
    constructor
    · -- a pattern of one character takes one, and it has to be some case of the first letter
      rintro ⟨s₁, s₂, rfl, hc, hl⟩
      obtain ⟨d, hd, rfl⟩ := matches_char_iff.mp hc
      exact ⟨d, s₂, contains_folded_iff.mp hd, ih.mp hl, rfl⟩
    · rintro ⟨d, s₂, hd, hl, rfl⟩
      refine ⟨[d], s₂, rfl, ?_, ih.mpr hl⟩
      exact matches_char_iff.mpr ⟨d, contains_folded_iff.mpr hd, rfl⟩

/-! ### Assertions, texts and runs of characters

What remains are the other building blocks of the scrubber's own patterns: an edge of a word, a text
letter by letter, a class a fixed number of times, and a class as often as possible. Whether a
repetition is greedy makes no difference to what it can match, only to what the search prefers. -/

theorem matches_look_iff {l : Look} {u s v : List Char} :
    (look l).Matches u s v ↔ s = [] ∧ l.holds u.getLast? v.head? = true := by
  constructor
  · intro h
    cases h with
    | look hl => exact ⟨rfl, hl⟩
  · rintro ⟨rfl, hl⟩
    exact .look hl

theorem matchesAll_map_exactly_iff {cs u s v : List Char} :
    MatchesAll (cs.map exactly) u s v ↔ s = cs := by
  induction cs generalizing u s with
  | nil => exact matchesAll_nil_iff
  | cons c cs ih =>
    rw [List.map_cons, matchesAll_cons_iff]
    constructor
    · rintro ⟨s₁, s₂, rfl, hc, hcs⟩
      rw [matches_exactly_iff.mp hc, ih.mp hcs, List.singleton_append]
    · rintro rfl
      exact ⟨[c], cs, rfl, matches_exactly_iff.mpr rfl, ih.mpr rfl⟩

/-- A class so many times matches as many characters of the class. -/
theorem matches_times_char_iff {k : CharClass} {n : Nat} {u s v : List Char} :
    ((char k).times n).Matches u s v ↔ s.length = n ∧ ∀ c ∈ s, k.contains c = true := by
  rw [times, matches_sequence_iff]
  induction n generalizing u s with
  | zero =>
    rw [List.replicate_zero, matchesAll_nil_iff, List.length_eq_zero_iff]
    constructor
    · rintro rfl
      exact ⟨rfl, List.forall_mem_nil _⟩
    · exact And.left
  | succ n ih =>
    rw [List.replicate_succ, matchesAll_cons_iff]
    constructor
    · rintro ⟨s₁, s₂, rfl, hfirst, hrest⟩
      obtain ⟨c, hc, rfl⟩ := matches_char_iff.mp hfirst
      obtain ⟨hlength, hall⟩ := ih.mp hrest
      exact ⟨congrArg (· + 1) hlength, List.forall_mem_cons.mpr ⟨hc, hall⟩⟩
    · rintro ⟨hlength, hall⟩
      cases s with
      | nil => cases hlength
      | cons c s =>
        obtain ⟨hc, hall⟩ := List.forall_mem_cons.mp hall
        refine ⟨[c], s, rfl, matches_char_iff.mpr ⟨c, hc, rfl⟩, ih.mpr ⟨?_, hall⟩⟩
        exact Nat.succ.inj hlength

theorem matches_loop_char_iff {k : CharClass} {g : Bool} {u s v : List Char} :
    (loop (char k) g).Matches u s v ↔ ∀ c ∈ s, k.contains c = true := by
  constructor
  · intro h
    -- the pattern becomes a variable, so that the cases of other patterns are told apart by it
    generalize hp : loop (char k) g = p at h
    induction h with
    | loopNone => exact List.forall_mem_nil _
    | @loopMore a g' u s t v ha _ _ ih =>
      cases hp
      obtain ⟨c, hc, rfl⟩ := matches_char_iff.mp ha
      exact List.forall_mem_cons.mpr ⟨hc, ih rfl⟩
    | _ => cases hp
  · intro h
    -- the other way the induction is on the text: each of its characters is one more round
    induction s generalizing u with
    | nil => exact .loopNone
    | cons c s ih =>
      obtain ⟨hc, hs⟩ := List.forall_mem_cons.mp h
      exact .loopMore (matches_char_iff.mpr ⟨c, hc, rfl⟩) (ih hs)

/-- A class once or more matches any run of its characters. -/
theorem matches_oneOrMore_char_iff {k : CharClass} {g : Bool} {u s v : List Char} :
    (oneOrMore (char k) g).Matches u s v ↔ s ≠ [] ∧ ∀ c ∈ s, k.contains c = true := by
  constructor
  · intro h
    cases h with
    | oneOrMore ha hrest =>
      -- the first round takes a character, and the loop behind it takes the others
      obtain ⟨c, hc, rfl⟩ := matches_char_iff.mp ha
      refine ⟨List.cons_ne_nil _ _, List.forall_mem_cons.mpr ⟨hc, ?_⟩⟩
      exact matches_loop_char_iff.mp hrest
  · rintro ⟨hne, hall⟩
    cases s with
    | nil => exact absurd rfl hne
    | cons c s =>
      obtain ⟨hc, hs⟩ := List.forall_mem_cons.mp hall
      exact .oneOrMore (matches_char_iff.mpr ⟨c, hc, rfl⟩) (matches_loop_char_iff.mpr hs)

end Prospectus.Pattern
