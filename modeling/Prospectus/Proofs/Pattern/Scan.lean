import Prospectus.Proofs.Pattern.Search

/-!
# What replacing does to a text

Scanning cuts a text into pieces: what is kept and what is matched (`Piece`, `Scan`). A scan is
determined by its text (`Scan.unique`) and there always is one (`exists_scan`). Replacing puts the
new text for every match (`replaceAll_of_scan`). From this come the facts the scrubber rests on:

* `replaceAll_sublist`: if every match contains the new text, replacing only takes characters away;
* `replaceAll_nil_eq_self_iff`: removing leaves a text as it is iff its scan finds only empty
  matches;
* `not_occurs_of_replaceAll_eq`: if the matches are longer than the new text and replacing leaves a
  text as it is, the pattern does not occur in it.
-/

namespace Prospectus.Pattern

/-! ### Pieces of a text

A text that has been scanned is a list of pieces, some kept and some matched. Replacing is a map
over the pieces, so what it does to the text is told from the matched ones: if all of them contain
the new text, nothing is ever added. -/

/-- A piece of a text that has been scanned: characters that are kept, or a match. Matches may be
empty. -/
inductive Piece
  | kept (cs : List Char)
  | hit (cs : List Char)
  deriving DecidableEq

def Piece.text : Piece → List Char
  | kept cs => cs
  | hit cs => cs

/-- A piece with `new` put for a match. -/
def Piece.replaced (new : List Char) : Piece → List Char
  | kept cs => cs
  | hit _ => new

section

variable {pieces : List Piece} {new : List Char}

/-- If every match contains the new text, replacing takes characters away. -/
theorem replaced_sublist (h : ∀ y, .hit y ∈ pieces → new.Sublist y) :
    (pieces.flatMap (Piece.replaced new)).Sublist (pieces.flatMap Piece.text) := by
  induction pieces with
  | nil => exact .slnil
  | cons piece pieces ih =>
    rw [List.flatMap_cons, List.flatMap_cons]
    have hrest := ih fun y hy => h y (List.mem_cons_of_mem _ hy)
    cases piece with
    | kept cs => exact (List.Sublist.refl cs).append hrest
    | hit cs => exact (h cs List.mem_cons_self).append hrest

/-- Such a replacement changes nothing only if every match is the new text. -/
theorem hit_eq_of_replaced_eq (h : ∀ y, .hit y ∈ pieces → new.Sublist y)
    (heq : pieces.flatMap (Piece.replaced new) = pieces.flatMap Piece.text) :
    ∀ y, .hit y ∈ pieces → y = new := by
  induction pieces with
  | nil => simp
  | cons piece pieces ih =>
    have hsub : ∀ y, .hit y ∈ pieces → new.Sublist y :=
      fun y hy => h y (List.mem_cons_of_mem _ hy)
    have hrest := (replaced_sublist hsub).length_le
    have hlen := congrArg List.length heq
    simp only [List.flatMap_cons, List.length_append] at heq hlen
    intro y hy
    -- a piece that is kept is the same on both sides, so only hits can make a difference
    cases piece with
    | kept cs =>
      rcases List.mem_cons.mp hy with hcs | hy
      · cases hcs
      · exact ih hsub (List.append_cancel_left heq) y hy
    | hit cs =>
      -- neither part may get shorter, so the two sides agree part by part
      have hcs := h cs List.mem_cons_self
      have hle := hcs.length_le
      simp only [Piece.replaced, Piece.text] at heq hlen
      obtain ⟨hnew, htail⟩ := List.append_inj heq (by omega)
      rcases List.mem_cons.mp hy with hy | hy
      · cases hy
        exact hnew.symm
      · exact ih hsub htail y hy

theorem replaced_eq_text (h : ∀ y, .hit y ∈ pieces → y = new) :
    pieces.flatMap (Piece.replaced new) = pieces.flatMap Piece.text := by
  induction pieces with
  | nil => rfl
  | cons piece pieces ih =>
    rw [List.flatMap_cons, List.flatMap_cons, ih fun y hy => h y (List.mem_cons_of_mem _ hy)]
    cases piece with
    | kept cs => rfl
    | hit cs =>
      obtain rfl := h cs List.mem_cons_self
      rfl

end

/-! ### Scans

The rules of `Scan` are those of successive matches. After a match the search goes on where it
ended, and an empty match right there does not count, since it would be found for ever; one
character is passed over instead. A scan is a function of the text, as the search is. -/

/-- The pieces of a text that stands after `pre`: the search goes on where the match before ended,
and a character is passed over where the search finds an empty match right at that place. -/
inductive Scan (p : Pattern) : List Char → Bool → List Char → List Piece → Prop
  | done {pre afterMatch cs} : p.find? pre.getLast? cs = none → Scan p pre afterMatch cs [.kept cs]
  | atEnd {pre} : p.find? pre.getLast? [] = some (0, 0) → Scan p pre true [] []
  | pass {pre c cs pieces} : p.find? pre.getLast? (c :: cs) = some (0, 0) →
      Scan p (pre ++ [c]) false cs pieces → Scan p pre true (c :: cs) (.kept [c] :: pieces)
  | found {pre afterMatch x y z pieces} :
      p.find? pre.getLast? (x ++ y ++ z) = some (x.length, x.length + y.length) →
      (afterMatch = true → x ++ y ≠ []) → Scan p (pre ++ x ++ y) true z pieces →
      Scan p pre afterMatch (x ++ y ++ z) (.kept x :: .hit y :: pieces)

section

variable {p : Pattern} {pre cs : List Char} {afterMatch : Bool} {pieces : List Piece}

theorem Scan.text (h : Scan p pre afterMatch cs pieces) : pieces.flatMap Piece.text = cs := by
  induction h with
  | done _ => simp [Piece.text]
  | atEnd _ => rfl
  | pass _ _ ih => simp [Piece.text, ih]
  | found _ _ _ ih => simp [Piece.text, ih]

theorem Scan.matches_of_hit (h : Scan p pre afterMatch cs pieces) {y : List Char}
    (hy : .hit y ∈ pieces) : ∃ u v, p.Matches u y v := by
  -- the scan hands hits on from the rest of the text; a new one comes from the search alone
  induction h with
  | done _ => simp at hy
  | atEnd _ => simp at hy
  | pass _ _ ih => exact ih (by simpa using hy)
  | @found pre _ x y₁ z _ hf _ _ ih =>
    rcases List.mem_cons.mp hy with hy | hy
    · cases hy
    · rcases List.mem_cons.mp hy with hy | hy
      · cases hy
        -- the search gives lengths, which cut the text in one way only
        obtain ⟨x', y', z', htext, hx, hxy, hm⟩ := span_of_find? hf
        obtain ⟨hxy', rfl⟩ := List.append_inj htext (by simp only [List.length_append]; omega)
        obtain ⟨rfl, rfl⟩ := List.append_inj hxy' hx.symm
        exact ⟨_, _, hm⟩
      · exact ih hy

/-- A match in the text shows in a hit, empty or not. It need not be this match: one that begins
before it may overlap with it. -/
theorem Scan.exists_hit (h : Scan p pre false cs pieces) {i j : Nat} (hs : Span p pre cs i j) :
    ∃ y, .hit y ∈ pieces := by
  cases h with
  | done hf => exact absurd hs (find?_eq_none_iff.mp hf i j)
  | @found _ _ _ y _ _ _ _ _ => exact ⟨y, by simp⟩

/-- A match from the first place up to the first place is empty. -/
theorem append_eq_nil_of_span_zero {x y : List Char}
    (h : some (x.length, x.length + y.length) = some (0, 0)) : x ++ y = [] := by
  obtain ⟨-, hxy⟩ := Prod.mk.inj (Option.some.inj h)
  exact List.eq_nil_of_length_eq_zero (List.length_append.trans hxy)

/-- A text has one scan only. Which rule applies is told by the search and by the flag. -/
theorem Scan.unique {pieces' : List Piece} (h : Scan p pre afterMatch cs pieces)
    (h' : Scan p pre afterMatch cs pieces') : pieces = pieces' := by
  -- both scans ask the search the same question, so they take the same step and then agree by the
  -- induction hypothesis
  induction h generalizing pieces' with
  | @done pre afterMatch cs hf =>
    cases h' with
    | done _ => rfl
    | atEnd hf' => cases hf.symm.trans hf'
    | pass hf' _ => cases hf.symm.trans hf'
    | found hf' _ _ => cases hf.symm.trans hf'
  | @atEnd pre hf =>
    generalize hcs : ([] : List Char) = cs at h'
    cases h' with
    | done hf' =>
      rw [← hcs, hf] at hf'
      cases hf'
    | atEnd _ => rfl
    | pass _ _ => cases hcs
    | found _ hne _ =>
      -- a match without characters at the very end, next to another one, is not taken
      obtain ⟨hxy, -⟩ := List.append_eq_nil_iff.mp hcs.symm
      exact absurd hxy (hne rfl)
  | @pass pre c cs pieces hf _ ih =>
    generalize hcs : c :: cs = cs' at h'
    cases h' with
    | done hf' =>
      rw [← hcs, hf] at hf'
      cases hf'
    | atEnd _ => cases hcs
    | pass _ hrest =>
      obtain ⟨rfl, rfl⟩ := List.cons.inj hcs
      rw [ih hrest]
    | found hf' hne _ =>
      -- the search has found nothing at no distance, which is what was passed over
      rw [← hcs, hf] at hf'
      exact absurd (append_eq_nil_of_span_zero hf'.symm) (hne rfl)
  | @found pre afterMatch x y z pieces hf hne _ ih =>
    generalize hcs : x ++ y ++ z = cs at h'
    cases h' with
    | done hf' =>
      rw [← hcs, hf] at hf'
      cases hf'
    | atEnd _ =>
      obtain ⟨hxy, -⟩ := List.append_eq_nil_iff.mp hcs
      exact absurd hxy (hne rfl)
    | pass hf' _ =>
      rw [← hcs, hf] at hf'
      exact absurd (append_eq_nil_of_span_zero hf') (hne rfl)
    | found hf' _ hrest =>
      -- both have found a match, at the same place and of the same length
      rw [← hcs, hf] at hf'
      obtain ⟨hx, hxy⟩ := Prod.mk.inj (Option.some.inj hf')
      obtain ⟨hxy', rfl⟩ := List.append_inj hcs (by simp only [List.length_append]; exact hxy)
      obtain ⟨rfl, rfl⟩ := List.append_inj hxy' hx
      rw [ih hrest]

end

/-! ### Scanning ends

Each step of a scan takes a character, except that an empty match may stand between two of them. So
the steps are bounded by twice the characters and two, and the flag says whether an empty match may
still be taken at this place. -/

/-- A bound on the steps of a scan. It gets smaller with every step, also with those that take no
character, as these set the flag. -/
def scanBound (afterMatch : Bool) (cs : List Char) : Nat :=
  2 * cs.length + if afterMatch then 1 else 2

theorem scanBound_pos (afterMatch : Bool) (cs : List Char) : 0 < scanBound afterMatch cs := by
  cases afterMatch <;> simp [scanBound]

theorem scanBound_pass (c : Char) (cs : List Char) :
    scanBound false cs < scanBound true (c :: cs) := by
  simp only [scanBound, List.length_cons, if_true, Bool.false_eq_true, if_false]
  omega

theorem scanBound_found {x y : List Char} {afterMatch : Bool} (z : List Char)
    (h : afterMatch = true → x ++ y ≠ []) :
    scanBound true z < scanBound afterMatch (x ++ y ++ z) := by
  rw [scanBound, scanBound, List.length_append]
  cases afterMatch with
  | false =>
    simp only [if_true, Bool.false_eq_true, if_false]
    omega
  | true =>
    have hpos := List.length_pos_iff.mpr (h rfl)
    simp only [if_true]
    omega

section

variable {p : Pattern} {pre cs : List Char} {afterMatch : Bool} {pieces : List Piece}

theorem exists_scan_of_le {n : Nat} (h : scanBound afterMatch cs ≤ n) :
    ∃ pieces, Scan p pre afterMatch cs pieces := by
  -- the induction is on a bound of the steps: a step passes a character or the end of a match
  induction n generalizing pre afterMatch cs with
  | zero =>
    have hpos := scanBound_pos afterMatch cs
    omega
  | succ n ih =>
    cases hf : p.find? pre.getLast? cs with
    | none => exact ⟨_, .done hf⟩
    | some ij =>
      obtain ⟨i, j⟩ := ij
      obtain ⟨x, y, z, rfl, rfl, rfl, -⟩ := span_of_find? hf
      by_cases hne : afterMatch = true → x ++ y ≠ []
      · have hbound := scanBound_found z hne
        obtain ⟨pieces, hrest⟩ : ∃ pieces, Scan p (pre ++ x ++ y) true z pieces := ih (by omega)
        exact ⟨_, .found hf hne hrest⟩
      · -- an empty match right after a match: the scan passes over a character, if there is one
        obtain ⟨rfl, hnil⟩ := Classical.not_imp.mp hne
        obtain ⟨rfl, rfl⟩ := List.append_eq_nil_iff.mp (Classical.not_not.mp hnil)
        cases z with
        | nil => exact ⟨_, .atEnd hf⟩
        | cons c z =>
          have hbound := scanBound_pass c z
          obtain ⟨pieces, hrest⟩ : ∃ pieces, Scan p (pre ++ [c]) false z pieces :=
            ih (Nat.le_of_lt_succ (Nat.lt_of_lt_of_le hbound h))
          exact ⟨_, .pass hf hrest⟩

/-- Every text has a scan. The induction is on the bound, since a step need not make the text
shorter. -/
theorem exists_scan (p : Pattern) (pre : List Char) (afterMatch : Bool) (cs : List Char) :
    ∃ pieces, Scan p pre afterMatch cs pieces :=
  exists_scan_of_le (Nat.le_refl _)

/-! ### Replacing along a scan

The loop that replaces makes the same steps as a scan. With the scan at hand, its result is told
without the loop, and all properties of replacing that the scrubber needs follow from what a match
of the pattern is. -/

theorem replaceFrom_found {new x y z : List Char} {before : Option Char} {steps : Nat}
    (hf : p.find? before (x ++ y ++ z) = some (x.length, x.length + y.length))
    (hne : afterMatch = true → x ++ y ≠ []) :
    replaceFrom p new (steps + 1) before afterMatch (x ++ y ++ z) =
      x ++ new ++ replaceFrom p new steps (lastOf before (x ++ y)) true z := by
  -- the guard asks for an empty match next to the last one, and this is none
  have hguard : (afterMatch && x.length == 0 && x.length + y.length == 0) = false := by
    cases afterMatch with
    | false => rfl
    | true =>
      have hpos := List.length_pos_iff.mpr (hne rfl)
      rw [List.length_append] at hpos
      rw [Bool.and_eq_false_iff]
      exact .inr (beq_eq_false_iff_ne.mpr (by omega))
  have hx : (x ++ y ++ z).take x.length = x := by simp
  have hxy : (x ++ y ++ z).take (x.length + y.length) = x ++ y :=
    List.take_left' List.length_append
  have hz : (x ++ y ++ z).drop (x.length + y.length) = z := List.drop_left' List.length_append
  simp only [replaceFrom, hf, hguard, hx, hxy, hz, Bool.false_eq_true, if_false]

/-- Replacing puts the new text for every hit of a scan. -/
theorem replaceFrom_of_scan (new : List Char) {steps : Nat} (h : Scan p pre afterMatch cs pieces)
    (hsteps : scanBound afterMatch cs ≤ steps) :
    replaceFrom p new steps pre.getLast? afterMatch cs =
      pieces.flatMap (Piece.replaced new) := by
  -- one step of the function for each step of the scan
  induction h generalizing steps with
  | done hf => cases steps <;> simp [replaceFrom, hf, Piece.replaced]
  | atEnd hf => cases steps <;> simp [replaceFrom, hf]
  | @pass pre c cs pieces hf _ ih =>
    have hbound := scanBound_pass c cs
    obtain ⟨steps, rfl⟩ : ∃ n, steps = n + 1 := ⟨steps - 1, by omega⟩
    have hle : scanBound false cs ≤ steps := by omega
    have hrest := ih hle
    rw [List.getLast?_concat] at hrest
    simp [replaceFrom, hf, Piece.replaced, hrest]
  | @found pre afterMatch x y z pieces hf hne _ ih =>
    have hbound := scanBound_found z hne
    obtain ⟨steps, rfl⟩ : ∃ n, steps = n + 1 := ⟨steps - 1, by omega⟩
    have hle : scanBound true z ≤ steps := by omega
    have hrest := ih hle
    rw [List.append_assoc, List.getLast?_append] at hrest
    rw [replaceFrom_found hf hne, lastOf, hrest]
    simp [Piece.replaced]

/-- Replacing all matches puts the new text for every hit of a scan of the whole text. The loop has
a bound on its steps, which is enough for every scan. -/
theorem replaceAll_of_scan (new : List Char) (h : Scan p [] false cs pieces) :
    p.replaceAll new cs = pieces.flatMap (Piece.replaced new) :=
  replaceFrom_of_scan new h (Nat.le_refl _)

end

section

variable {p : Pattern} {new cs : List Char}

/-- If every match contains the new text, replacing only takes characters away. -/
theorem replaceAll_sublist (h : ∀ u y v, p.Matches u y v → new.Sublist y) (cs : List Char) :
    (p.replaceAll new cs).Sublist cs := by
  obtain ⟨pieces, hs⟩ := exists_scan p [] false cs
  have hhit : ∀ y, .hit y ∈ pieces → new.Sublist y := by
    intro y hy
    obtain ⟨u, v, hm⟩ := hs.matches_of_hit hy
    exact h u y v hm
  have hsub := replaced_sublist hhit
  rwa [← replaceAll_of_scan new hs, hs.text] at hsub

/-- Scanning the text finds `y` as one of the successive leftmost matches. Other occurrences of the
pattern, which overlap with these or lie inside them, do not count. -/
def Finds (p : Pattern) (cs y : List Char) : Prop :=
  ∃ pieces, Scan p [] false cs pieces ∧ .hit y ∈ pieces

/-- If replacing leaves a text as it is, its scan finds nothing but the new text. -/
theorem eq_of_finds (h : ∀ u y v, p.Matches u y v → new.Sublist y)
    (heq : p.replaceAll new cs = cs) {y : List Char} (hy : p.Finds cs y) : y = new := by
  obtain ⟨pieces, hs, hmem⟩ := hy
  refine hit_eq_of_replaced_eq (fun y hy => ?_) ?_ y hmem
  · obtain ⟨u, v, hm⟩ := hs.matches_of_hit hy
    exact h u y v hm
  · rw [← replaceAll_of_scan new hs, hs.text, heq]

/-- Removing leaves a text as it is iff its scan finds only empty matches. -/
theorem replaceAll_nil_eq_self_iff :
    p.replaceAll [] cs = cs ↔ ∀ y, p.Finds cs y → y = [] := by
  constructor
  · intro heq y hy
    exact eq_of_finds (fun _ y _ _ => List.nil_sublist y) heq hy
  · intro h
    obtain ⟨pieces, hs⟩ := exists_scan p [] false cs
    rw [replaceAll_of_scan [] hs, replaced_eq_text fun y hy => h y ⟨pieces, hs, hy⟩, hs.text]

/-- A pattern that occurs is found. -/
theorem Occurs.exists_finds (h : p.Occurs cs) : ∃ y, p.Finds cs y := by
  obtain ⟨u, s, v, rfl, hm⟩ := h
  obtain ⟨pieces, hs⟩ := exists_scan p [] false (u ++ s ++ v)
  obtain ⟨y, hy⟩ := hs.exists_hit ⟨u, s, v, rfl, rfl, rfl, hm⟩
  exact ⟨y, pieces, hs, hy⟩

theorem Finds.matches {y : List Char} (h : p.Finds cs y) : ∃ u v, p.Matches u y v := by
  obtain ⟨pieces, hs, hy⟩ := h
  exact hs.matches_of_hit hy

/-- If the matches contain the new text and are longer, a text that replacing leaves as it is has
no match. -/
theorem not_occurs_of_replaceAll_eq
    (h : ∀ u y v, p.Matches u y v → new.Sublist y ∧ new.length < y.length)
    (heq : p.replaceAll new cs = cs) : ¬ p.Occurs cs := by
  intro hocc
  obtain ⟨y, hy⟩ := hocc.exists_finds
  obtain ⟨u, v, hm⟩ := hy.matches
  have hlt := (h u y v hm).2
  rw [eq_of_finds (fun u y v hm => (h u y v hm).1) heq hy] at hlt
  exact Nat.lt_irrefl _ hlt

end

/-! ### The length of a match

A bound from below on the length of matches, read off the pattern. If it is positive, no match is
empty, and then a text that removing leaves alone has no match at all. -/

/-- No match is shorter. The bound need not be reached; for an alternative it is that of the shorter
side. -/
def minLength : Pattern → Nat
  | empty | look _ | loop _ _ => 0
  | char _ => 1
  | cat a b => a.minLength + b.minLength
  | alt a b => min a.minLength b.minLength
  | oneOrMore a _ => a.minLength

theorem Matches.minLength_le {p : Pattern} {u s v : List Char} (h : p.Matches u s v) :
    p.minLength ≤ s.length := by
  induction h with
  -- patterns that may take nothing
  | empty | look _ | loopNone | loopMore _ _ _ _ => exact Nat.zero_le _
  | char _ => exact Nat.le_refl _
  | cat _ _ iha ihb =>
    rw [minLength, List.length_append]
    omega
  | altLeft _ ih | altRight _ ih =>
    rw [minLength]
    omega
  | oneOrMore _ _ iha _ =>
    rw [minLength, List.length_append]
    omega

/-- A pattern whose matches are not empty does not occur where removing changes nothing. -/
theorem not_occurs_of_replaceAll_nil_eq {p : Pattern} {cs : List Char} (h : 0 < p.minLength)
    (heq : p.replaceAll [] cs = cs) : ¬ p.Occurs cs := by
  refine not_occurs_of_replaceAll_eq (fun u y v hm => ⟨List.nil_sublist y, ?_⟩) heq
  exact Nat.lt_of_lt_of_le h hm.minLength_le

end Prospectus.Pattern
