import Mathlib.Data.List.Infix
import Prospectus.Text.Pieces

/-!
# Pieces that are joined and cut again

Joining undoes cutting (`joinWith_splitOn`), but cutting need not undo joining: a separator may
begin in the end of one piece and go on in the separator that follows. `Recuts` says of some pieces
that none does, and then cutting gives them back:

    splitOn_joinWith : Recuts sep ps → splitOn sep (joinWith sep ps) = ps
    recuts_splitOn : Recuts sep (splitOn sep cs)

Leaving pieces out of a joined text and taking characters away from them makes it a part of what it
was (`joinWith_sublist`, `joinWith_map_sublist`), and a shorter one unless nothing was done.
-/

namespace Prospectus.Text

/-! ### Joined pieces

Joining is monotone: fewer pieces, or pieces with fewer characters, make a part of the whole. The
converse is what idempotence needs: if the whole has kept its length, no piece was left out and none
has lost a character. -/

section

variable {sep : List Char} {ps qs : List (List Char)}

theorem joinWith_sublist_cons (sep p : List Char) (ps : List (List Char)) :
    (joinWith sep ps).Sublist (joinWith sep (p :: ps)) := by
  cases ps with
  | nil => exact List.nil_sublist _
  | cons q qs => exact List.sublist_append_right _ _

/-- Leaving pieces out takes characters away. -/
theorem joinWith_sublist (sep : List Char) {ps qs : List (List Char)} (h : ps.Sublist qs) :
    (joinWith sep ps).Sublist (joinWith sep qs) := by
  induction h with
  | slnil => exact .slnil
  | cons q _ ih => exact ih.trans (joinWith_sublist_cons sep q _)
  | @cons_cons ps qs p h ih =>
    -- the last piece has no separator behind it
    cases ps with
    | nil =>
      cases qs with
      | nil => exact .refl _
      | cons q qs =>
        exact List.sublist_append_of_sublist_left (List.sublist_append_left p sep)
    | cons p' ps =>
      have hne : qs ≠ [] := by
        rintro rfl
        cases h
      rw [joinWith_cons (List.cons_ne_nil _ _), joinWith_cons hne]
      exact (List.Sublist.refl (p ++ sep)).append ih

/-- Leaving out some pieces but not all makes the whole shorter. -/
theorem length_joinWith_lt (hs : sep ≠ []) (h : ps.Sublist qs) (hne : ps ≠ []) (hps : ps ≠ qs) :
    (joinWith sep ps).length < (joinWith sep qs).length := by
  have hsep : 0 < sep.length := List.length_pos_iff.mpr hs
  induction h with
  | slnil => exact absurd rfl hne
  | @cons ps qs q h ih =>
    -- a piece was left out, and at least one separator goes with it
    have hqs : qs ≠ [] := by
      rintro rfl
      exact hne (List.sublist_nil.mp h)
    have hle := (joinWith_sublist sep h).length_le
    rw [joinWith_cons hqs, List.length_append, List.length_append]
    omega
  | @cons_cons ps qs p h ih =>
    -- a piece was kept, so the difference lies behind it
    have hrest : ps ≠ qs := fun heq => hps (congrArg _ heq)
    have hqs : qs ≠ [] := by
      rintro rfl
      exact hrest (List.sublist_nil.mp h)
    rw [joinWith_cons hqs, List.length_append, List.length_append]
    by_cases hnil : ps = []
    · subst hnil
      rw [joinWith]
      omega
    · have hlt := ih hnil hrest
      rw [joinWith_cons hnil, List.length_append, List.length_append]
      omega

/-- Taking characters away from the pieces takes them away from the whole. -/
theorem joinWith_map_sublist (sep : List Char) {f : List Char → List Char}
    (hf : ∀ p, (f p).Sublist p) (ps : List (List Char)) :
    (joinWith sep (ps.map f)).Sublist (joinWith sep ps) := by
  induction ps with
  | nil => exact .slnil
  | cons p ps ih =>
    cases ps with
    | nil => exact hf p
    | cons q ps => exact ((hf p).append (.refl sep)).append ih

/-- If the whole is not shorter afterwards, nothing was taken from any piece. -/
theorem map_eq_self_of_joinWith {f : List Char → List Char} (hf : ∀ p, (f p).Sublist p)
    (h : (joinWith sep ps).length ≤ (joinWith sep (ps.map f)).length) : ps.map f = ps := by
  induction ps with
  | nil => rfl
  | cons p ps ih =>
    cases ps with
    | nil => exact congrArg (fun q => [q]) ((hf p).eq_of_length_le h)
    | cons q ps =>
      have hp := (hf p).length_le
      have hrest := (joinWith_map_sublist sep hf (q :: ps)).length_le
      have hne : (q :: ps).map f ≠ [] := List.cons_ne_nil _ _
      rw [List.map_cons, joinWith_cons hne, joinWith_cons (List.cons_ne_nil q ps)] at h
      simp only [List.length_append] at h
      rw [List.map_cons, (hf p).eq_of_length_le (by omega), ih (by omega)]

theorem infix_joinWith_of_mem {p : List Char} (h : p ∈ ps) : p <:+: joinWith sep ps := by
  induction ps with
  | nil => cases h
  | cons q ps ih =>
    cases ps with
    | nil =>
      obtain rfl := List.mem_singleton.mp h
      exact List.infix_rfl
    | cons q' ps =>
      rcases List.mem_cons.mp h with rfl | h
      · rw [joinWith_cons (List.cons_ne_nil q' ps), List.append_assoc]
        exact (List.prefix_append p _).isInfix
      · exact (ih h).trans (List.suffix_append _ _).isInfix

end

/-! ### Pieces that can be cut again

Whether a separator begins in a piece depends on what follows the piece, and no more of that than
one separator. `Recuts` asks each piece but the last with a separator behind it. -/

/-- No separator begins in the piece if `rest` follows. A separator that begins in the piece may end
in the rest. -/
def Unbroken (sep piece rest : List Char) : Prop :=
  ∀ v, v ≠ [] → v <:+ piece → ¬ sep <+: v ++ rest

/-- In none of the pieces begins a separator, if they are joined. -/
def Recuts (sep : List Char) : List (List Char) → Prop
  | [] => False
  | [p] => Unbroken sep p []
  | p :: q :: ps => Unbroken sep p sep ∧ Recuts sep (q :: ps)

section

variable {sep p rest cs : List Char} {ps qs : List (List Char)}

theorem unbroken_nil : Unbroken sep [] rest :=
  fun _ hne hsuffix => absurd (List.suffix_nil.mp hsuffix) hne

theorem unbroken_cons {c : Char} :
    Unbroken sep (c :: p) rest ↔ ¬ sep <+: c :: (p ++ rest) ∧ Unbroken sep p rest := by
  constructor
  · intro h
    refine ⟨h (c :: p) (List.cons_ne_nil c p) List.suffix_rfl, fun v hne hsuffix => ?_⟩
    exact h v hne (hsuffix.trans (List.suffix_cons c p))
  · rintro ⟨hfirst, hlater⟩ v hne hsuffix
    rcases List.suffix_cons_iff.mp hsuffix with rfl | hsuffix
    · exact hfirst
    · exact hlater v hne hsuffix

theorem Unbroken.of_prefix {rest' : List Char} (h : Unbroken sep p rest) (hrest : rest' <+: rest) :
    Unbroken sep p rest' := by
  intro v hne hsuffix hsep
  exact h v hne hsuffix (hsep.trans ((List.prefix_append_right_inj v).mpr hrest))

/-- Only the first separator that follows can have a part in one that begins in the piece, as a
separator that begins in the piece is no longer than the piece and another one. -/
theorem Unbroken.append_right (h : Unbroken sep p sep) (rest : List Char) :
    Unbroken sep p (sep ++ rest) := by
  intro v hne hsuffix hsep
  rw [← List.append_assoc] at hsep
  refine h v hne hsuffix (List.prefix_of_prefix_length_le hsep (List.prefix_append _ rest) ?_)
  rw [List.length_append]
  omega

theorem unbroken_nil_right_iff (hs : sep ≠ []) : Unbroken sep p [] ↔ ¬ sep <:+: p := by
  constructor
  · rintro h ⟨u, w, rfl⟩
    refine h (sep ++ w) (by simp [hs]) ?_ ?_
    · rw [List.append_assoc]
      exact List.suffix_append u (sep ++ w)
    · rw [List.append_nil]
      exact List.prefix_append sep w
  · intro h v _ hsuffix hsep
    rw [List.append_nil] at hsep
    exact h (hsep.isInfix.trans hsuffix.isInfix)

theorem recuts_cons (h : ps ≠ []) : Recuts sep (p :: ps) ↔ Unbroken sep p sep ∧ Recuts sep ps := by
  cases ps with
  | nil => exact absurd rfl h
  | cons q ps => rfl

theorem Recuts.ne_nil (h : Recuts sep ps) : ps ≠ [] := by
  rintro rfl
  exact h

theorem Recuts.unbroken (h : Recuts sep ps) (hp : p ∈ ps) : Unbroken sep p [] := by
  induction ps with
  | nil => cases hp
  | cons q ps ih =>
    by_cases hnil : ps = []
    · subst hnil
      obtain rfl := List.mem_singleton.mp hp
      exact h
    · obtain ⟨hq, hps⟩ := (recuts_cons hnil).mp h
      rcases List.mem_cons.mp hp with rfl | hp
      · exact hq.of_prefix (List.nil_prefix)
      · exact ih hps hp

/-- Pieces that are left when others are left out can still be cut again. -/
theorem Recuts.sublist (h : Recuts sep qs) (hsub : ps.Sublist qs) (hne : ps ≠ []) :
    Recuts sep ps := by
  induction hsub with
  | slnil => exact absurd rfl hne
  | @cons ps qs q hsub ih =>
    have hqs : qs ≠ [] := by
      rintro rfl
      exact hne (List.sublist_nil.mp hsub)
    exact ih ((recuts_cons hqs).mp h).2 hne
  | @cons_cons ps qs p hsub ih =>
    -- the last piece that is left needs no separator behind it
    by_cases hps : ps = []
    · subst hps
      exact h.unbroken List.mem_cons_self
    · have hqs : qs ≠ [] := by
        rintro rfl
        exact hps (List.sublist_nil.mp hsub)
      obtain ⟨hp, hqs⟩ := (recuts_cons hqs).mp h
      exact (recuts_cons hps).mpr ⟨hp, ih hqs hps⟩

/-! ### Cutting

Cutting goes through the text and looks for a separator at each character. It passes over a piece in
which none begins, and then finds the one behind the piece. -/

/-- Cutting passes over a piece in which no separator begins. -/
theorem splitFrom_append (h : Unbroken sep p rest) (piece : List Char) :
    splitFrom sep 0 piece (p ++ rest) = splitFrom sep 0 (p.reverse ++ piece) rest := by
  induction p generalizing piece with
  | nil => rfl
  | cons c p ih =>
    obtain ⟨hfirst, hlater⟩ := unbroken_cons.mp h
    rw [List.cons_append, splitFrom, if_neg fun hsep => hfirst (startsWith_iff.mp hsep), ih hlater,
      List.reverse_cons, List.append_assoc, List.singleton_append]

theorem splitFrom_skip (skip : Nat) (piece cs : List Char) :
    splitFrom sep skip piece cs = splitFrom sep 0 piece (cs.drop skip) := by
  induction cs generalizing skip with
  | nil => cases skip <;> rfl
  | cons c cs ih =>
    cases skip with
    | zero => rfl
    | succ n => exact ih n

theorem splitOn_of_unbroken (h : Unbroken sep p []) : splitOn sep p = [p] := by
  have hpass := splitFrom_append h []
  rw [List.append_nil, List.append_nil, splitFrom, List.reverse_reverse] at hpass
  exact hpass

theorem splitOn_append_sep (hs : sep ≠ []) (h : Unbroken sep p sep) (rest : List Char) :
    splitOn sep (p ++ (sep ++ rest)) = p :: splitOn sep rest := by
  rw [splitOn, splitFrom_append (h.append_right rest)]
  cases sep with
  | nil => exact absurd rfl hs
  | cons c sep =>
    have hsep : startsWith (c :: (sep ++ rest)) (c :: sep) = true :=
      startsWith_iff.mpr ⟨rest, rfl⟩
    rw [List.cons_append, splitFrom, if_pos hsep, splitFrom_skip, List.length_cons,
      Nat.add_sub_cancel, List.drop_left, List.append_nil, List.reverse_reverse, splitOn]

/-- A text has no separator, or a first one. What stands before the first one is unbroken, also with
the separator behind it. -/
theorem unbroken_or_exists_append (sep cs : List Char) :
    Unbroken sep cs [] ∨ ∃ p rest, cs = p ++ (sep ++ rest) ∧ Unbroken sep p sep := by
  induction cs with
  | nil => exact .inl unbroken_nil
  | cons c cs ih =>
    by_cases hsep : sep <+: c :: cs
    · obtain ⟨rest, hrest⟩ := hsep
      exact .inr ⟨[], rest, hrest.symm, unbroken_nil⟩
    · rcases ih with h | ⟨p, rest, rfl, hp⟩
      · exact .inl (unbroken_cons.mpr ⟨by rwa [List.append_nil], h⟩)
      · refine .inr ⟨c :: p, rest, rfl, unbroken_cons.mpr ⟨fun hfirst => hsep ?_, hp⟩⟩
        rw [← List.append_assoc]
        exact hfirst.trans (List.prefix_append (c :: (p ++ sep)) rest)

/-- What a text was cut into can be cut again. -/
theorem recuts_splitOn (hs : sep ≠ []) (cs : List Char) : Recuts sep (splitOn sep cs) := by
  induction hn : cs.length using Nat.strongRecOn generalizing cs with
  | _ n ih =>
    rcases unbroken_or_exists_append sep cs with h | ⟨p, rest, rfl, hp⟩
    · rw [splitOn_of_unbroken h]
      exact h
    · have hpos := List.length_pos_iff.mpr hs
      simp only [List.length_append] at hn
      have hrest := ih rest.length (by omega) rest rfl
      rw [splitOn_append_sep hs hp]
      exact (recuts_cons hrest.ne_nil).mpr ⟨hp, hrest⟩

/-- Pieces in which no separator begins are given back by cutting. -/
theorem splitOn_joinWith (hs : sep ≠ []) (h : Recuts sep ps) :
    splitOn sep (joinWith sep ps) = ps := by
  induction ps with
  | nil => exact h.elim
  | cons p ps ih =>
    by_cases hnil : ps = []
    · subst hnil
      exact splitOn_of_unbroken h
    · obtain ⟨hp, hps⟩ := (recuts_cons hnil).mp h
      rw [joinWith_cons hnil, List.append_assoc, splitOn_append_sep hs hp, ih hps]

theorem infix_of_mem_splitOn (hs : sep ≠ []) (hp : p ∈ splitOn sep cs) : p <:+: cs := by
  have hjoined : p <:+: joinWith sep (splitOn sep cs) := infix_joinWith_of_mem hp
  rwa [joinWith_splitOn hs] at hjoined

end

end Prospectus.Text
