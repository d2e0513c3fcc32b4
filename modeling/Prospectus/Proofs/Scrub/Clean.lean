import Prospectus.Proofs.Pattern.Scan
import Prospectus.Proofs.Scrub.Settle
import Prospectus.Proofs.Traversal

/-!
# What is left of a scrubbed text

One round of a scrubber removes patterns one after the other. A removal may join what stood around
it to a match of a pattern that was removed before, so one round is not enough, and no single stage
can be trusted to have the last word. The scrubber repeats rounds until one changes nothing. All
stages of a round only take characters away, so that round was idle stage by stage
(`scrubOnce_eq_self_iff`): nothing that is removed is left to be found.

That is said first of any scrubber without empty literals (`Scrubber.Proper.clears_scrub`), whatever
patterns it has. The scrubber that is made of rules is such a one, so what it leaves of any text is
`Clean` (`clean_scrub`): the rules have nothing to find in it. How patterns are read has no part in
this beyond which patterns the scrubber has, so it holds in every dialect.
-/

namespace Prospectus.Scrub

open Pattern

/-! ### The stages of a round

A round removes student numbers, mail addresses, the literals, the personal patterns and phrases
that every page has; then it shortens runs of blank lines and trims the ends. Each of these stages
takes characters away and adds none. That needs an argument for blank lines only, where two line
feeds are put for a run that has three or more. -/

theorem deletes_trim : Deletes Text.trim := Text.trim_sublist

theorem deletes_replaceAll_nil (p : Pattern) : Deletes (p.replaceAll []) :=
  replaceAll_sublist fun _ y _ _ => List.nil_sublist y

/-- A run of blank lines contains the two line feeds that are put for it, and a third one. -/
theorem newlines_of_matches_blankLineRun {u s v : List Char} (h : blankLineRun.Matches u s v) :
    ['\n', '\n'].Sublist s ∧ ['\n', '\n'].length < s.length := by
  have hlen : blankLineRun.minLength ≤ s.length := h.minLength_le
  have hthree : blankLineRun.minLength = 3 := by decide
  refine ⟨?_, by simp only [List.length_cons, List.length_nil]; omega⟩
  obtain ⟨s₁, t₁, rfl, h₁, hrest⟩ := matchesAll_cons_iff.mp (matches_sequence_iff.mp h)
  obtain ⟨s₂, t₂, rfl, -, hrest⟩ := matchesAll_cons_iff.mp hrest
  obtain ⟨s₃, t₃, rfl, h₃, -⟩ := matchesAll_cons_iff.mp hrest
  obtain rfl := matches_exactly_iff.mp h₁
  obtain rfl := matches_exactly_iff.mp h₃
  have hlater : ['\n'].Sublist (s₂ ++ (['\n'] ++ t₃)) :=
    List.sublist_append_of_sublist_right (List.sublist_append_left ['\n'] t₃)
  exact hlater.cons_cons '\n'

theorem deletes_blankLineRun : Deletes (blankLineRun.replaceAll ['\n', '\n']) :=
  replaceAll_sublist fun _ _ _ h => (newlines_of_matches_blankLineRun h).1

namespace Scrubber

/-- A round only takes characters away. -/
theorem deletes_scrubOnce (s : Scrubber) : Deletes s.scrubOnce :=
  ((Deletes.foldl deletes_replaceAll_nil s.removed).comp deletes_blankLineRun).comp deletes_trim

/-- A round that changes nothing is idle stage by stage: what one stage would take away, no later
stage could put back. -/
theorem scrubOnce_eq_self_iff {s : Scrubber} {cs : List Char} :
    s.scrubOnce cs = cs ↔ (∀ p ∈ s.removed, p.replaceAll [] cs = cs) ∧
      blankLineRun.replaceAll ['\n', '\n'] cs = cs ∧ Text.trim cs = cs := by
  have hremoved : Deletes fun cs => s.removed.foldl (fun cs p => p.replaceAll [] cs) cs :=
    Deletes.foldl deletes_replaceAll_nil s.removed
  rw [← Deletes.foldl_eq_self_iff deletes_replaceAll_nil, ← and_assoc,
    ← hremoved.comp_eq_self_iff deletes_blankLineRun]
  exact (hremoved.comp deletes_blankLineRun).comp_eq_self_iff deletes_trim

theorem deletes_scrubChars (s : Scrubber) : Deletes s.scrubChars :=
  s.deletes_scrubOnce.settle

/-- Scrubbing ends in a text that one more round leaves as it is. -/
theorem scrubOnce_scrubChars (s : Scrubber) (cs : List Char) :
    s.scrubOnce (s.scrubChars cs) = s.scrubChars cs :=
  settle_settled s.deletes_scrubOnce (Nat.le_succ _)

theorem scrub_eq_self_iff {s : Scrubber} {text : String} :
    s.scrub text = text ↔ s.scrubChars text.toList = text.toList := by
  rw [scrub, String.ext_iff, String.toList_ofList]

theorem scrub_scrub (s : Scrubber) (text : String) : s.scrub (s.scrub text) = s.scrub text := by
  have hfix : s.scrubChars (s.scrubChars text.toList) = s.scrubChars text.toList :=
    settle_of_settled (s.scrubOnce_scrubChars text.toList)
  simp only [scrub, String.toList_ofList, hfix]

end Scrubber

/-! ### Texts in which nothing is left

What is left of each stage once it is idle. For a pattern that cannot match the empty text it is
that the pattern does not occur. A personal pattern may be one that can, and then the text is full
of empty matches; what can be said is that scanning finds no other. -/

/-- A text in which nothing is left that a scrubber removes. Of patterns that match no empty text it
is said that they match nothing in it, whatever the search does; of personal patterns, that the
search finds nothing but empty matches. -/
structure Scrubber.Clears (s : Scrubber) (o : String) : Prop where
  studentId : ¬ studentId.Occurs o.toList
  email : ¬ email.Occurs o.toList
  /-- No part of the text is a literal in any case. -/
  literals : ∀ l ∈ s.literals, ∀ u m v, o.toList = u ++ m ++ v → ¬ List.Forall₂ SameLetter l m
  /-- A personal pattern may match the empty text, and scanning finds no other match. -/
  patterns : ∀ p ∈ s.patterns, ∀ y, p.Finds o.toList y → y = []
  boilerplate : ∀ p ∈ boilerplate, ¬ p.Occurs o.toList
  blankLines : ¬ blankLineRun.Occurs o.toList
  noBlankFirst : ∀ c ∈ o.toList.head?, Text.isBlank c = false
  noBlankLast : ∀ c ∈ o.toList.getLast?, Text.isBlank c = false

/-- No literal of a scrubber is empty. The empty text occurs everywhere and cannot be removed.
Nothing is asked of the patterns. -/
def Scrubber.Proper (s : Scrubber) : Prop := ∀ l ∈ s.literals, l ≠ []

theorem minLength_pos_of_mem_builtin :
    ∀ p ∈ [studentId, email] ++ boilerplate, 0 < p.minLength := by decide

namespace Scrubber

variable {s : Scrubber}

/-- In a text that a round leaves as it is nothing is left to remove, since every stage of the round
was idle. What that says of a pattern depends on whether it can match the empty text: if it cannot,
the pattern does not occur, and if it can, scanning finds nothing but empty matches. -/
theorem Proper.clears_of_settled (h : s.Proper) {o : String}
    (hfix : s.scrubOnce o.toList = o.toList) : s.Clears o := by
  obtain ⟨hremoved, hblank, htrim⟩ := scrubOnce_eq_self_iff.mp hfix
  obtain ⟨hfirst, hlast⟩ := Text.trim_eq_self_iff.mp htrim
  -- a match of a built-in pattern is never empty, so a text that it leaves as it is has none
  have hbuiltin : ∀ p ∈ [Scrub.studentId, Scrub.email] ++ Scrub.boilerplate,
      ¬ p.Occurs o.toList := by
    intro p hp
    refine not_occurs_of_replaceAll_nil_eq (minLength_pos_of_mem_builtin p hp) (hremoved p ?_)
    simp only [removed, List.mem_append] at hp ⊢
    rcases hp with hp | hp
    · exact .inl (.inl (.inl hp))
    · exact .inr hp
  have hliterals : ∀ l ∈ s.literals, ¬ (literalAnyCase l).Occurs o.toList := by
    intro l hl
    have hmem : literalAnyCase l ∈ s.removed := by
      simp only [removed, List.mem_append]
      exact .inl (.inl (.inr (List.mem_map_of_mem hl)))
    refine not_occurs_of_replaceAll_eq (fun u y v hm => ⟨List.nil_sublist y, ?_⟩) (hremoved _ hmem)
    -- a match is as long as the literal, so it is not empty
    rw [← (matches_literalAnyCase_iff.mp hm).length_eq]
    exact List.length_pos_iff.mpr (h l hl)
  have hpatterns : ∀ p ∈ s.patterns, p ∈ s.removed := by
    intro p hp
    simp only [removed, List.mem_append]
    exact .inl (.inr hp)
  exact {
    studentId := hbuiltin _ (by simp)
    email := hbuiltin _ (by simp)
    literals := fun l hl u m v ho hsame =>
      hliterals l hl ⟨u, m, v, ho, matches_literalAnyCase_iff.mpr hsame⟩
    -- a personal pattern may match the empty text, and removing nothing leaves the text as it is
    patterns := fun p hp => replaceAll_nil_eq_self_iff.mp (hremoved p (hpatterns p hp))
    boilerplate := fun p hp => hbuiltin p (List.mem_append_right _ hp)
    blankLines := not_occurs_of_replaceAll_eq (fun _ _ _ => newlines_of_matches_blankLineRun) hblank
    noBlankFirst := hfirst
    noBlankLast := hlast }

/-- What a scrubber leaves of any text has nothing left to remove. -/
theorem Proper.clears_scrub (h : s.Proper) (text : String) : s.Clears (s.scrub text) := by
  refine h.clears_of_settled ?_
  rw [scrub, String.toList_ofList]
  exact s.scrubOnce_scrubChars text.toList

end Scrubber

/-! ### The scrubber of some rules

From a scrubber to the rules that it was made of: a literal counts trimmed and if it is not blank, a
pattern counts if it is not blank. -/

section

variable [Dialect] {rules : Rules} {s : Scrubber} {o : String}

/-- A text in which nothing is left that rules say to scrub. Literals count trimmed, as they are
compared; blank literals and blank patterns do not count. -/
structure Clean (rules : Rules) (o : String) : Prop where
  studentId : ¬ studentId.Occurs o.toList
  email : ¬ email.Occurs o.toList
  /-- No part of the text is a literal in any case. -/
  literals : ∀ l ∈ rules.personalLiterals, ¬ Text.IsBlank l → ∀ u s v, o.toList = u ++ s ++ v →
    ¬ List.Forall₂ SameLetter (Text.trim l.toList) s
  /-- A personal pattern may match the empty text, and scanning finds no other match. -/
  patterns : ∀ w ∈ rules.personalPatterns, ¬ Text.IsBlank w →
    ∃ p, Pattern.ofText? w true = some p ∧ ∀ y, p.Finds o.toList y → y = []
  boilerplate : ∀ p ∈ boilerplate, ¬ p.Occurs o.toList
  blankLines : ¬ blankLineRun.Occurs o.toList
  noBlankFirst : ∀ c ∈ o.toList.head?, Text.isBlank c = false
  noBlankLast : ∀ c ∈ o.toList.getLast?, Text.isBlank c = false

namespace Scrubber

/-- The literals of a scrubber are those of its rules that are not blank, trimmed. -/
theorem literals_of_ofRules (h : Scrubber.ofRules rules = .ok s) :
    s.literals = (rules.personalLiterals.map fun l => Text.trim l.toList).filter (!·.isEmpty) := by
  obtain ⟨patterns, -, h⟩ := bind_eq_ok_iff.mp h
  cases h
  rfl

/-- The rules of a scrubber have no empty literals, since blank ones count for nothing. -/
theorem proper_of_ofRules (h : Scrubber.ofRules rules = .ok s) : s.Proper := by
  intro l hl
  rw [literals_of_ofRules h, List.mem_filter, Bool.not_eq_true', List.isEmpty_eq_false_iff] at hl
  exact hl.2

/-- Each pattern that counts was read. -/
theorem exists_pattern_of_ofRules (h : Scrubber.ofRules rules = .ok s) {w : String}
    (hw : w ∈ rules.personalPatterns) (hblank : ¬ Text.IsBlank w) :
    ∃ p ∈ s.patterns, Pattern.ofText? w true = some p := by
  obtain ⟨patterns, hpatterns, h⟩ := bind_eq_ok_iff.mp h
  cases h
  have hmem : w ∈ rules.personalPatterns.filter fun p => !decide (Text.IsBlank p) :=
    List.mem_filter.mpr ⟨hw, by simpa using hblank⟩
  obtain ⟨p, hp, hread⟩ := exists_mem_of_mapM_eq_ok hpatterns hmem
  refine ⟨p, hp, ?_⟩
  split at hread
  · next heq =>
    cases hread
    exact heq
  · cases hread

/-- Where nothing is left for the scrubber of some rules, nothing is left that the rules name. -/
theorem Clears.clean (h : s.Clears o) (hs : Scrubber.ofRules rules = .ok s) : Clean rules o where
  studentId := h.studentId
  email := h.email
  literals := by
    intro l hl hblank
    refine h.literals _ ?_
    rw [literals_of_ofRules hs, List.mem_filter, Bool.not_eq_true', List.isEmpty_eq_false_iff]
    exact ⟨List.mem_map_of_mem hl, fun hnil => hblank (Text.trim_eq_nil_iff.mp hnil)⟩
  patterns := by
    intro w hw hblank
    obtain ⟨p, hp, hread⟩ := exists_pattern_of_ofRules hs hw hblank
    exact ⟨p, hread, h.patterns p hp⟩
  boilerplate := h.boilerplate
  blankLines := h.blankLines
  noBlankFirst := h.noBlankFirst
  noBlankLast := h.noBlankLast

end Scrubber

/-- What a scrubber leaves of any text is clean. -/
theorem clean_scrub (h : Scrubber.ofRules rules = .ok s) (text : String) :
    Clean rules (s.scrub text) :=
  ((Scrubber.proper_of_ofRules h).clears_scrub text).clean h

end

/-- The literal is joined anew by its own removal, and the pattern matches the empty text. -/
theorem clean_scrub_spliced :
    let rules : Rules := ⟨["Ann "], ["j*"]⟩
    let s : Scrubber := ⟨["Ann".toList], [.loop (.char (.folded (.one 'j'))) true]⟩
    Scrubber.ofRules rules = .ok s ∧ Clean rules (s.scrub "AAnnnn: J 100123456/1") :=
  ⟨by decide, clean_scrub (by decide) "AAnnnn: J 100123456/1"⟩

end Prospectus.Scrub
