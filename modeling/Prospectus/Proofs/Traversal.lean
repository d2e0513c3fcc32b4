import Mathlib.Data.List.Forall2

/-! # Computations that may fail, one after the other

What it means that a chain of computations in `Except` succeeds: each of them does, and the results
belong to the inputs position by position (`mapM_eq_ok_iff`), or each of them keeps what held before
it (`foldlM_invariant`).

Readers, decoders, pipelines and commands are all written as such chains. The lemmas take a chain
that has succeeded apart, so that a proof about it is one about a single step. For chains that fail
there is one description too: those before the first failure have succeeded, and its error is that
of the chain (`mapM_eq_error_iff`). -/

namespace Prospectus

universe u v

variable {ε : Type u} {α β : Type v}

/-- Two computations succeed together iff the first does, and the second does on its result. -/
theorem bind_eq_ok_iff {x : Except ε α} {f : α → Except ε β} {b : β} :
    x >>= f = .ok b ↔ ∃ a, x = .ok a ∧ f a = .ok b := by
  cases x with
  | error e =>
    constructor
    · intro h
      cases h
    · rintro ⟨a, h, -⟩
      cases h
  | ok a =>
    constructor
    · intro h
      exact ⟨a, rfl, h⟩
    · rintro ⟨a', h, hf⟩
      cases h
      exact hf

theorem map_eq_ok_iff {x : Except ε α} {f : α → β} {b : β} :
    x.map f = .ok b ↔ ∃ a, x = .ok a ∧ f a = b := by
  cases x with
  | error e =>
    constructor
    · intro h
      cases h
    · rintro ⟨a, h, -⟩
      cases h
  | ok a =>
    constructor
    · intro h
      exact ⟨a, rfl, Except.ok.inj h⟩
    · rintro ⟨a', h, hf⟩
      cases h
      exact congrArg Except.ok hf

theorem mapError_eq_ok_iff {ε' : Type u} {x : Except ε α} {f : ε → ε'} {a : α} :
    x.mapError f = .ok a ↔ x = .ok a := by
  cases x with
  | error e => simp [Except.mapError]
  | ok b => simp [Except.mapError]

theorem mapError_eq_error_iff {ε' : Type u} {x : Except ε α} {f : ε → ε'} {e : ε'} :
    x.mapError f = .error e ↔ ∃ e', x = .error e' ∧ e = f e' := by
  cases x with
  | error e' => simp [Except.mapError, eq_comm]
  | ok b => simp [Except.mapError]

/-- What is made of a result does not change whether there is one. -/
theorem bind_pure_eq_error_iff {x : Except ε α} {f : α → β} {e : ε} :
    (x >>= fun a => pure (f a)) = .error e ↔ x = .error e := by
  cases x <;> simp [bind, Except.bind, pure, Except.pure]

theorem mapM_eq_ok_iff {f : α → Except ε β} {l : List α} {r : List β} :
    l.mapM f = .ok r ↔ List.Forall₂ (fun a b => f a = .ok b) l r := by
  -- a list of results is made item by item, and the first error would end it
  induction l generalizing r with
  | nil =>
    rw [List.mapM_nil, List.forall₂_nil_left_iff]
    constructor
    · intro h
      cases h
      rfl
    · rintro rfl
      rfl
  | cons a l ih =>
    rw [List.mapM_cons, List.forall₂_cons_left_iff, bind_eq_ok_iff]
    constructor
    · rintro ⟨b, hb, h⟩
      obtain ⟨bs, hbs, h⟩ := bind_eq_ok_iff.mp h
      cases h
      exact ⟨b, bs, hb, ih.mp hbs, rfl⟩
    · rintro ⟨b, bs, hb, hbs, rfl⟩
      exact ⟨b, hb, bind_eq_ok_iff.mpr ⟨bs, ih.mpr hbs, rfl⟩⟩

theorem mapM_congr {f g : α → Except ε β} {l : List α} (h : ∀ a ∈ l, f a = g a) :
    l.mapM f = l.mapM g := by
  induction l with
  | nil => rfl
  | cons a l ih =>
    obtain ⟨ha, hl⟩ := List.forall_mem_cons.mp h
    rw [List.mapM_cons, List.mapM_cons, ha, ih hl]

/-- A chain fails with the error of the first computation that fails. -/
theorem mapM_eq_error_iff {f : α → Except ε β} {l : List α} {e : ε} : l.mapM f = .error e ↔
    ∃ before a after, l = before ++ a :: after ∧ f a = .error e ∧
      ∀ b ∈ before, ∃ c, f b = .ok c := by
  induction l with
  | nil => simp [pure, Except.pure]
  | cons a l ih =>
    rw [List.mapM_cons]
    cases ha : f a with
    | error e' =>
      -- the first computation fails, so the list is cut in front of it
      constructor
      · intro h
        cases h
        exact ⟨[], a, l, rfl, ha, by simp⟩
      · rintro ⟨before, b, after, heq, hb, hbefore⟩
        cases before with
        | nil =>
          obtain ⟨rfl, -⟩ := List.cons.inj heq
          cases ha.symm.trans hb
          rfl
        | cons c before =>
          -- the first computation would have succeeded
          obtain ⟨rfl, -⟩ := List.cons.inj heq
          obtain ⟨x, hx⟩ := hbefore a List.mem_cons_self
          cases ha.symm.trans hx
    | ok c =>
      -- it succeeds, and the failure lies behind it
      apply (bind_pure_eq_error_iff (x := l.mapM f)).trans
      rw [ih]
      constructor
      · rintro ⟨before, b, after, rfl, hb, hbefore⟩
        exact ⟨a :: before, b, after, rfl, hb, List.forall_mem_cons.mpr ⟨⟨c, ha⟩, hbefore⟩⟩
      · rintro ⟨before, b, after, heq, hb, hbefore⟩
        cases before with
        | nil =>
          obtain ⟨rfl, -⟩ := List.cons.inj heq
          cases ha.symm.trans hb
        | cons d before =>
          obtain ⟨rfl, rfl⟩ := List.cons.inj heq
          exact ⟨before, b, after, rfl, hb, (List.forall_mem_cons.mp hbefore).2⟩

/-- A chain in which one computation fails and all others succeed fails with its error. -/
theorem mapM_eq_error {f : α → Except ε β} {l : List α} {a : α} {e : ε} (ha : a ∈ l)
    (hfail : f a = .error e) (h : ∀ b ∈ l, b ≠ a → ∃ c, f b = .ok c) : l.mapM f = .error e := by
  obtain ⟨before, after, rfl, hbefore⟩ := List.eq_append_cons_of_mem ha
  refine mapM_eq_error_iff.mpr ⟨before, a, after, rfl, hfail, fun b hb => ?_⟩
  apply h b (List.mem_append_left _ hb)
  rintro rfl
  exact hbefore hb

/-- Every input of a chain that succeeds has a result in it. -/
theorem exists_mem_of_mapM_eq_ok {f : α → Except ε β} {l : List α} {r : List β}
    (h : l.mapM f = .ok r) {a : α} (ha : a ∈ l) : ∃ b ∈ r, f a = .ok b := by
  have hall := mapM_eq_ok_iff.mp h
  clear h
  induction hall with
  | nil => cases ha
  | @cons a' b l r hb _ ih =>
    rcases List.mem_cons.mp ha with rfl | ha
    · exact ⟨b, List.mem_cons_self, hb⟩
    · obtain ⟨b', hb', hf⟩ := ih ha
      exact ⟨b', List.mem_cons_of_mem _ hb', hf⟩

/-- Every result of a chain comes from one of the inputs. -/
theorem exists_mem_of_mem_mapM {f : α → Except ε β} {l : List α} {r : List β}
    (h : l.mapM f = .ok r) {b : β} (hb : b ∈ r) : ∃ a ∈ l, f a = .ok b := by
  have hall := mapM_eq_ok_iff.mp h
  clear h
  induction hall with
  | nil => cases hb
  | @cons a b' l r hf _ ih =>
    rcases List.mem_cons.mp hb with rfl | hb
    · exact ⟨a, List.mem_cons_self, hf⟩
    · obtain ⟨a', ha', hf'⟩ := ih hb
      exact ⟨a', List.mem_cons_of_mem _ ha', hf'⟩

/-- A chain succeeds if each of its computations does. -/
theorem exists_mapM_eq_ok {f : α → Except ε β} {l : List α} (h : ∀ a ∈ l, ∃ b, f a = .ok b) :
    ∃ r, l.mapM f = .ok r := by
  induction l with
  | nil => exact ⟨[], rfl⟩
  | cons a l ih =>
    obtain ⟨⟨b, hb⟩, hl⟩ := List.forall_mem_cons.mp h
    obtain ⟨r, hr⟩ := ih hl
    exact ⟨b :: r, mapM_eq_ok_iff.mpr (.cons hb (mapM_eq_ok_iff.mp hr))⟩

/-- What holds of no input and the start of a run that succeeds, and is carried on to one more input
by each step that does, holds of all inputs and the end. -/
theorem foldlM_invariant_done {f : β → α → Except ε β} {l : List α} {start last : β}
    {P : List α → β → Prop} (h : l.foldlM f start = .ok last) (hstart : P [] start)
    (hstep : ∀ done a rest b b', l = done ++ a :: rest → P done b → f b a = .ok b' →
      P (done ++ [a]) b') : P l last := by
  -- the inputs done so far move from the list to the ones behind them
  suffices hrun : ∀ rest done b, l = done ++ rest → P done b → rest.foldlM f b = .ok last →
      P l last from hrun l [] start rfl hstart h
  intro rest
  induction rest with
  | nil =>
    intro done b hl hb hrest
    cases hrest
    rwa [hl, List.append_nil]
  | cons a rest ih =>
    intro done b hl hb hrest
    rw [List.foldlM_cons] at hrest
    obtain ⟨next, hnext, hrest⟩ := bind_eq_ok_iff.mp hrest
    refine ih (done ++ [a]) next ?_ (hstep done a rest b next hl hb hnext) hrest
    rw [hl, List.append_assoc, List.singleton_append]

/-- What holds at the start of a run that succeeds, and is kept by each step that does, holds at its
end. -/
theorem foldlM_invariant {f : β → α → Except ε β} {l : List α} {start last : β} {P : β → Prop}
    (h : l.foldlM f start = .ok last) (hstart : P start)
    (hstep : ∀ b, ∀ a ∈ l, ∀ b', P b → f b a = .ok b' → P b') : P last :=
  foldlM_invariant_done (P := fun _ => P) h hstart fun _ a _ b b' hl =>
    hstep b a (hl ▸ List.mem_append_right _ List.mem_cons_self) b'

/-- A run succeeds if each of its steps does, given what the steps before it have carried on. -/
theorem exists_foldlM_eq_ok {f : β → α → Except ε β} {l : List α} {start : β}
    {P : List α → β → Prop} (hstart : P [] start)
    (hstep : ∀ done a rest b, l = done ++ a :: rest → P done b →
      ∃ b', f b a = .ok b' ∧ P (done ++ [a]) b') :
    ∃ last, l.foldlM f start = .ok last ∧ P l last := by
  suffices hrun : ∀ rest done b, l = done ++ rest → P done b →
      ∃ last, rest.foldlM f b = .ok last ∧ P l last from hrun l [] start rfl hstart
  intro rest
  induction rest with
  | nil =>
    intro done b hl hb
    rw [List.append_nil] at hl
    exact ⟨b, rfl, hl ▸ hb⟩
  | cons a rest ih =>
    intro done b hl hb
    obtain ⟨next, hnext, hnext'⟩ := hstep done a rest b hl hb
    have hl' : l = (done ++ [a]) ++ rest := by rw [hl, List.append_assoc, List.singleton_append]
    obtain ⟨last, hlast, hP⟩ := ih _ next hl' hnext'
    exact ⟨last, by rw [List.foldlM_cons, hnext]; exact hlast, hP⟩

/-- Each step of a run that succeeds does. -/
theorem exists_step_of_foldlM {f : β → α → Except ε β} {l : List α} {start last : β}
    (h : l.foldlM f start = .ok last) : ∀ a ∈ l, ∃ b b', f b a = .ok b' := by
  induction l generalizing start with
  | nil => exact List.forall_mem_nil _
  | cons a l ih =>
    rw [List.foldlM_cons] at h
    obtain ⟨next, hnext, h⟩ := bind_eq_ok_iff.mp h
    intro a' ha'
    rcases List.mem_cons.mp ha' with rfl | ha'
    · exact ⟨start, next, hnext⟩
    · exact ih h a' ha'

/-- A run that succeeds is also a run of other steps, if each of these does what was done. -/
theorem foldlM_eq_ok_of_step {f g : β → α → Except ε β} {l : List α} {start last : β}
    (hstep : ∀ a ∈ l, ∀ b b', f b a = .ok b' → g b a = .ok b') (h : l.foldlM f start = .ok last) :
    l.foldlM g start = .ok last := by
  induction l generalizing start with
  | nil => exact h
  | cons a l ih =>
    rw [List.foldlM_cons] at h ⊢
    obtain ⟨next, hnext, h⟩ := bind_eq_ok_iff.mp h
    have hrest := ih (fun a' ha' => hstep a' (List.mem_cons_of_mem _ ha')) h
    exact bind_eq_ok_iff.mpr ⟨next, hstep a List.mem_cons_self start next hnext, hrest⟩

end Prospectus
