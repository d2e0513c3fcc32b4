import Mathlib.Tactic.SplitIfs
import Prospectus.Proofs.Text.Pieces
import Prospectus.Store.Path

/-! # Paths and their steps

How the steps of a path go with its text: a slash separates steps (`stepsOf_append_slash`), so the
steps of a joined path are those of both parts, and the directory of a path has all its steps but
the last (`exists_steps_parent`).

Paths are texts, and many texts lead to one place: `a//b`, `a/./b` and `a/b` have the same steps.
What a file tree does with a path depends on its steps only, apart from the question whether it ends
in a directory. So what is joined and cut as text is compared here with its steps, and everything
after this module speaks of steps. -/

namespace Prospectus

theorem Text.splitFrom_append_slash (piece xs ys : List Char) :
    splitFrom ['/'] 0 piece (xs ++ '/' :: ys) =
      splitFrom ['/'] 0 piece xs ++ splitFrom ['/'] 0 [] ys := by
  induction xs generalizing piece with
  | nil => rfl
  | cons x xs ih =>
    rw [List.cons_append, splitFrom, splitFrom]
    -- a slash ends the piece; any other character is added to it
    by_cases hx : x = '/'
    · subst hx
      have hlead : ∀ cs, startsWith ('/' :: cs) ['/'] = true := fun _ => rfl
      rw [if_pos (hlead _), if_pos (hlead _), List.cons_append]
      exact congrArg _ (ih [])
    · have hlead : ∀ cs, startsWith (x :: cs) ['/'] = false := by
        intro cs
        simp [startsWith, afterLead?, Ne.symm hx]
      simp only [hlead, Bool.false_eq_true, if_false]
      exact ih (x :: piece)

namespace Store.Path

open Text (splitOn)

/-- The steps that a written path stands for. -/
def stepsOf (cs : List Char) : List Step := (splitOn ['/'] cs).filterMap stepOf?

theorem steps_eq (p : Path) : p.steps = stepsOf p.text.toList := rfl

theorem splitOn_append_slash (xs ys : List Char) :
    splitOn ['/'] (xs ++ '/' :: ys) = splitOn ['/'] xs ++ splitOn ['/'] ys :=
  Text.splitFrom_append_slash [] xs ys

theorem splitOn_of_no_slash {cs : List Char} (h : '/' ∉ cs) : splitOn ['/'] cs = [cs] := by
  apply Text.splitOn_of_unbroken
  rw [Text.unbroken_nil_right_iff (List.cons_ne_nil _ _), List.singleton_infix_iff]
  exact h

theorem stepsOf_append_slash (xs ys : List Char) :
    stepsOf (xs ++ '/' :: ys) = stepsOf xs ++ stepsOf ys := by
  rw [stepsOf, splitOn_append_slash, List.filterMap_append]
  rfl

theorem stepsOf_of_no_slash {cs : List Char} (h : '/' ∉ cs) :
    stepsOf cs = (stepOf? cs).toList := by
  rw [stepsOf, splitOn_of_no_slash h]
  cases hstep : stepOf? cs with
  | none => rw [List.filterMap_cons_none hstep]; rfl
  | some step => rw [List.filterMap_cons_some hstep]; rfl

/-- A text is a last part, or a last part behind a slash. -/
theorem exists_last_part (cs : List Char) :
    ∃ part, '/' ∉ part ∧ (cs = part ∨ ∃ rest, cs = rest ++ '/' :: part) := by
  induction cs with
  | nil => exact ⟨[], List.not_mem_nil, .inl rfl⟩
  | cons c cs ih =>
    obtain ⟨part, hpart, rfl | ⟨rest, rfl⟩⟩ := ih
    · by_cases hc : c = '/'
      · exact ⟨cs, hpart, .inr ⟨[], by rw [hc]; rfl⟩⟩
      · exact ⟨c :: cs, by simp [hpart, Ne.symm hc], .inl rfl⟩
    · exact ⟨part, hpart, .inr ⟨c :: rest, rfl⟩⟩

/-! ### Joined paths

Joining puts a slash between two paths unless one is there already. If the second is a name, it is
the last step of the whole, and the path does not end in a directory. -/

/-- A name that a path can step into. It is not empty and not one or two dots, and has neither a
slash nor a null character in it. -/
structure IsName (name : String) : Prop where
  step : stepOf? name.toList = some (.into name)
  noSlash : '/' ∉ name.toList
  sound : '\x00' ∉ name.toList

instance (name : String) : Decidable (IsName name) :=
  decidable_of_iff (stepOf? name.toList = some (.into name) ∧ '/' ∉ name.toList ∧
      '\x00' ∉ name.toList)
    ⟨fun ⟨step, noSlash, sound⟩ => ⟨step, noSlash, sound⟩, fun h => ⟨h.step, h.noSlash, h.sound⟩⟩

section

variable {p : Path} {name : String}

theorem IsName.not_isAbsolute (h : IsName name) : (Path.mk name).isAbsolute = false := by
  have hslash := h.noSlash
  rw [isAbsolute]
  cases hcs : name.toList with
  | nil => rfl
  | cons c cs =>
    rw [hcs] at hslash
    simp [Text.startsWith, Text.afterLead?, List.ne_of_not_mem_cons hslash]

/-- A name in a directory is written behind the directory and a slash. -/
theorem toList_join (hp : p.text ≠ "") (h : IsName name) :
    ∃ rest, (p.join ⟨name⟩).text.toList = rest ++ '/' :: name.toList ∧
      (p.text.toList = rest ∨ p.text.toList = rest ++ ['/']) := by
  have hempty : p.text.isEmpty = false := by simpa using hp
  rw [join, h.not_isAbsolute, hempty, Bool.or_self, if_neg Bool.false_ne_true]
  split_ifs with hslash
  · have hlast : p.text.toList.getLast? = some '/' := by simpa using hslash
    obtain ⟨rest, hrest⟩ := List.getLast?_eq_some_iff.mp hlast
    refine ⟨rest, ?_, .inr hrest⟩
    rw [String.toList_append, hrest, List.append_assoc, List.singleton_append]
  · refine ⟨p.text.toList, ?_, .inl rfl⟩
    rw [String.toList_append, String.toList_append, List.append_assoc]
    rfl

theorem steps_join (hp : p.text ≠ "") (h : IsName name) :
    (p.join ⟨name⟩).steps = p.steps ++ [.into name] := by
  obtain ⟨rest, htext, hrest⟩ := toList_join hp h
  have hname : stepsOf name.toList = [.into name] := by
    rw [stepsOf_of_no_slash h.noSlash, h.step]
    rfl
  rw [steps_eq, htext, stepsOf_append_slash, hname, steps_eq]
  rcases hrest with hrest | hrest
  · rw [hrest]
  · -- the slash at the end of a directory adds an empty part, which is no step
    rw [hrest, stepsOf_append_slash rest []]
    exact congrArg (· ++ _) (List.append_nil _).symm

theorem endsInDirectory_eq {p : Path} {part : List Char} (hpart : '/' ∉ part)
    (h : p.text.toList = part ∨ ∃ rest, p.text.toList = rest ++ '/' :: part) :
    p.endsInDirectory = (part == [] || part == ['.']) := by
  have hlast : p.parts.getLast? = some part := by
    rw [parts]
    rcases h with h | ⟨rest, h⟩
    · rw [h, splitOn_of_no_slash hpart]
      rfl
    · rw [h, splitOn_append_slash, splitOn_of_no_slash hpart]
      exact List.getLast?_concat ..
  rw [endsInDirectory, hlast]

theorem IsName.ne (h : IsName name) : name.toList ≠ [] ∧ name.toList ≠ ['.'] := by
  have hstep := h.step
  unfold stepOf? at hstep
  split_ifs at hstep with hidle
  · exact not_or.mp hidle
  · exact not_or.mp hidle

theorem endsInDirectory_join (hp : p.text ≠ "") (h : IsName name) :
    (p.join ⟨name⟩).endsInDirectory = false := by
  obtain ⟨rest, htext, -⟩ := toList_join hp h
  rw [endsInDirectory_eq h.noSlash (.inr ⟨rest, htext⟩)]
  simp [h.ne]

/-- The characters of a part are characters of the path, and no slashes. -/
theorem mem_of_mem_splitFrom {piece cs part : List Char} (hpiece : '/' ∉ piece)
    (h : part ∈ Text.splitFrom ['/'] 0 piece cs) :
    ∀ c ∈ part, c ≠ '/' ∧ (c ∈ piece ∨ c ∈ cs) := by
  induction cs generalizing piece with
  | nil =>
    rw [Text.splitFrom, List.mem_singleton] at h
    subst h
    intro c hc
    have hc : c ∈ piece := List.mem_reverse.mp hc
    exact ⟨fun h => hpiece (h ▸ hc), .inl hc⟩
  | cons x cs ih =>
    rw [Text.splitFrom] at h
    -- at a slash the piece is a part of its own, and the next one begins empty
    split_ifs at h with hlead
    · rcases List.mem_cons.mp h with rfl | h
      · intro c hc
        have hc : c ∈ piece := List.mem_reverse.mp hc
        exact ⟨fun h => hpiece (h ▸ hc), .inl hc⟩
      · intro c hc
        obtain ⟨hne, hmem⟩ := ih List.not_mem_nil h c hc
        exact ⟨hne, .inr (List.mem_cons_of_mem _ (hmem.resolve_left List.not_mem_nil))⟩
    · have hx : x ≠ '/' := by
        rintro rfl
        exact hlead rfl
      intro c hc
      obtain ⟨hne, hmem⟩ := ih (by simp [hpiece, Ne.symm hx]) h c hc
      refine ⟨hne, ?_⟩
      simpa [or_assoc, or_left_comm] using hmem

/-- The names that a path without null characters steps into are names. -/
theorem isName_of_mem_steps (hp : p.isSound = true) (h : .into name ∈ p.steps) : IsName name := by
  obtain ⟨part, hpart, hstep⟩ := List.mem_filterMap.mp h
  have hchars := mem_of_mem_splitFrom List.not_mem_nil hpart
  have hname : name.toList = part := by
    unfold stepOf? at hstep
    split_ifs at hstep
    · cases hstep
    · rw [← Step.into.inj (Option.some.inj hstep), String.toList_ofList]
  have hsound : '\x00' ∉ p.text.toList := by simpa [isSound] using hp
  refine ⟨hname ▸ hstep, fun hmem => ?_, fun hmem => ?_⟩
  · exact (hchars '/' (hname ▸ hmem)).1 rfl
  · exact hsound ((hchars _ (hname ▸ hmem)).2.resolve_left List.not_mem_nil)

end

/-! ### The directory of a path

The directory of a path is found from the end of its text: slashes and single dots at the end are
dropped, then a name, and then slashes and dots once more. Of the steps this drops the last one. -/

theorem stepsOf_reverse_dropIdle (cs : List Char) :
    stepsOf (dropIdle cs).reverse = stepsOf cs.reverse := by
  -- a slash at the end adds an empty part and `/.` adds a single dot, neither of which is a step
  have hslash : ∀ cs, stepsOf ('/' :: cs).reverse = stepsOf cs.reverse := by
    intro cs
    rw [List.reverse_cons, stepsOf_append_slash]
    exact List.append_nil _
  have hdot : ∀ cs, stepsOf ('.' :: '/' :: cs).reverse = stepsOf cs.reverse := by
    intro cs
    rw [List.reverse_cons, List.reverse_cons, List.append_assoc, List.cons_append, List.nil_append,
      stepsOf_append_slash]
    exact List.append_nil _
  induction cs using dropIdle.induct with
  | case1 => rfl
  | case2 cs hcs ih => rw [dropIdle, ih, hslash]; exact hcs
  | case3 => rfl
  | case4 cs hcs ih => rw [dropIdle, ih, hdot]; exact hcs
  | case5 cs h₁ h₂ h₃ h₄ => rw [dropIdle] <;> assumption

theorem dropIdle_suffix (cs : List Char) : dropIdle cs <:+ cs := by
  induction cs using dropIdle.induct with
  | case1 => exact List.suffix_refl _
  | case2 cs hcs ih =>
    rw [dropIdle]
    · exact ih.trans (List.suffix_cons _ _)
    · exact hcs
  | case3 => exact List.suffix_cons _ _
  | case4 cs hcs ih =>
    rw [dropIdle]
    · exact ih.trans ((List.suffix_cons _ _).trans (List.suffix_cons _ _))
    · exact hcs
  | case5 cs h₁ h₂ h₃ h₄ =>
    have heq : dropIdle cs = cs := by
      rw [dropIdle] <;> assumption
    exact heq.symm ▸ List.suffix_refl cs

theorem dropName_append {part : List Char} (hpart : '/' ∉ part) (rest : List Char) :
    dropName (part ++ '/' :: rest) = '/' :: rest := by
  induction part with
  | nil => rw [List.nil_append, dropName]
  | cons c part ih =>
    rw [List.cons_append, dropName, ih (List.not_mem_of_not_mem_cons hpart)]
    rintro rfl
    exact hpart List.mem_cons_self

theorem dropName_of_no_slash {part : List Char} (hpart : '/' ∉ part) : dropName part = [] := by
  induction part with
  | nil => rw [dropName]
  | cons c part ih =>
    rw [dropName, ih (List.not_mem_of_not_mem_cons hpart)]
    rintro rfl
    exact hpart List.mem_cons_self

theorem dropName_suffix (cs : List Char) : dropName cs <:+ cs := by
  induction cs using dropName.induct with
  | case1 => exact List.suffix_refl _
  | case2 cs => exact List.suffix_refl _
  | case3 c cs hc ih =>
    rw [dropName]
    · exact ih.trans (List.suffix_cons _ _)
    · exact hc

/-- Nothing is idle at the end of a path that ends in a name. -/
theorem dropIdle_of_part {part rest : List Char} (hpart : '/' ∉ part) (hne : part ≠ [])
    (hdot : part ≠ ['.']) : dropIdle (part ++ rest) = part ++ rest := by
  cases part with
  | nil => exact absurd rfl hne
  | cons c part =>
    have hc : c ≠ '/' := fun h => hpart (h ▸ List.mem_cons_self)
    cases part with
    | nil =>
      have hc' : c ≠ '.' := fun h => hdot (h ▸ rfl)
      rw [dropIdle] <;> simp [hc, hc']
    | cons d part =>
      have hd : d ≠ '/' := fun h => hpart (h ▸ List.mem_cons_of_mem _ List.mem_cons_self)
      rw [dropIdle] <;> simp [hc, hd]

section

variable {p q : Path}

/-- The steps of a path that ends in a name or a step up are those of its directory and one more. -/
theorem exists_steps_parent (hend : p.endsInDirectory = false) (h : p.parent? = some q) :
    ∃ step, p.steps = q.steps ++ [step] := by
  obtain ⟨part, hpart, htext⟩ := exists_last_part p.text.toList
  obtain ⟨hne, hdot⟩ : part ≠ [] ∧ part ≠ ['.'] := by
    simpa [endsInDirectory_eq hpart htext] using hend
  obtain ⟨step, hstep⟩ : ∃ step, stepOf? part = some step := by
    unfold stepOf?
    -- the last part is a step, since it is neither empty nor a single dot
    split_ifs with hidle hup
    · exact absurd hidle (not_or.mpr ⟨hne, hdot⟩)
    · exact ⟨_, rfl⟩
    · exact ⟨_, rfl⟩
  have hlast : stepsOf part = [step] := by
    rw [stepsOf_of_no_slash hpart, hstep]
    rfl
  have hreverse : '/' ∉ part.reverse := by simpa using hpart
  have hidle : dropIdle p.text.toList.reverse = p.text.toList.reverse := by
    have hpart' : ∀ rest, dropIdle (part.reverse ++ rest) = part.reverse ++ rest := fun rest =>
      dropIdle_of_part hreverse (by simpa using hne) (by simpa using hdot)
    -- the last part is the whole path, or it stands behind a slash
    rcases htext with htext | ⟨rest, htext⟩
    · rw [htext]
      simpa using hpart' []
    · rw [htext, List.reverse_append, List.reverse_cons, List.append_assoc]
      exact hpart' _
  have hq : stepsOf q.text.toList = stepsOf (dropName p.text.toList.reverse).reverse := by
    rw [parent?, hidle] at h
    split at h
    · cases h
    · cases h
    · cases h
      rw [String.toList_ofList, stepsOf_reverse_dropIdle]
  refine ⟨step, ?_⟩
  rw [steps_eq, steps_eq, hq]
  rcases htext with htext | ⟨rest, htext⟩
  · rw [htext, dropName_of_no_slash hreverse, hlast]
    rfl
  · rw [htext, List.reverse_append, List.reverse_cons, List.append_assoc, List.singleton_append,
      dropName_append hreverse, stepsOf_append_slash, hlast]
    simp [stepsOf_append_slash]
    rfl

/-- The directory of a path is written at its beginning. -/
theorem parent_prefix (h : p.parent? = some q) : q.text.toList <+: p.text.toList := by
  have hsuffix : dropIdle (dropName (dropIdle p.text.toList.reverse)) <:+ p.text.toList.reverse :=
    (dropIdle_suffix _).trans ((dropName_suffix _).trans (dropIdle_suffix _))
  unfold parent? at h
  split at h
  · cases h
  · cases h
  · cases h
    rw [String.toList_ofList, ← List.reverse_suffix, List.reverse_reverse]
    assumption

end

end Store.Path

end Prospectus
