/-!
# Blank characters and trimming

The characters with the White_Space property, and the text that is left once they are taken off
its ends. `trim_trim` says that trimming twice is trimming once, `trim_eq_self_iff` which texts are
trimmed, and `trim_eq_nil_iff` of which texts nothing is left.
-/

namespace Prospectus.Text

/-- The characters with the White_Space property. -/
def isBlank (c : Char) : Bool :=
  let n := c.toNat
  (0x09 ≤ n && n ≤ 0x0D) || n == 0x20 || n == 0x85 || n == 0xA0 || n == 0x1680 ||
    (0x2000 ≤ n && n ≤ 0x200A) || n == 0x2028 || n == 0x2029 || n == 0x202F || n == 0x205F ||
    n == 0x3000

def trimStart (cs : List Char) : List Char := cs.dropWhile isBlank

def trimEnd (cs : List Char) : List Char := (cs.reverse.dropWhile isBlank).reverse

/-- Drop the blank characters at both ends. -/
def trim (cs : List Char) : List Char := trimEnd (trimStart cs)

/-- A text that holds nothing but blank characters. -/
def IsBlank (s : String) : Prop := ∀ c ∈ s.toList, isBlank c = true

instance (s : String) : Decidable (IsBlank s) := List.decidableBAll _ s.toList

/-! ### Both ends of a trimmed text -/

theorem trimStart_eq_self_iff {cs : List Char} :
    trimStart cs = cs ↔ ∀ c ∈ cs.head?, isBlank c = false := by
  cases cs with
  | nil => simp [trimStart]
  | cons c cs =>
    simp only [trimStart, List.dropWhile_cons, List.head?_cons, Option.mem_def, Option.some.injEq,
      forall_eq']
    constructor
    · intro h
      -- dropping a character would make the text shorter
      split at h
      · have := congrArg List.length h
        have := (List.dropWhile_sublist isBlank (l := cs)).length_le
        simp only [List.length_cons] at *
        omega
      · simp_all
    · intro h
      simp [h]

theorem trimStart_trimStart (cs : List Char) : trimStart (trimStart cs) = trimStart cs := by
  rw [trimStart_eq_self_iff]
  intro c hc
  have h := List.head?_dropWhile_not isBlank cs
  simp only [trimStart, Option.mem_def] at hc
  simpa [hc] using h

theorem trimEnd_trimEnd (cs : List Char) : trimEnd (trimEnd cs) = trimEnd cs := by
  simpa [trimEnd, trimStart] using trimStart_trimStart cs.reverse

theorem trimEnd_isPrefix (cs : List Char) : trimEnd cs <+: cs := by
  have h := List.dropWhile_suffix isBlank (l := cs.reverse)
  simpa [trimEnd] using List.reverse_prefix.2 h

theorem trimStart_isSuffix (cs : List Char) : trimStart cs <:+ cs :=
  List.dropWhile_suffix isBlank

theorem trim_sublist (cs : List Char) : (trim cs).Sublist cs :=
  (trimEnd_isPrefix _).sublist.trans (trimStart_isSuffix cs).sublist

theorem trimStart_trimEnd_trimStart (cs : List Char) :
    trimStart (trimEnd (trimStart cs)) = trimEnd (trimStart cs) := by
  rw [trimStart_eq_self_iff]
  intro c hc
  obtain ⟨t, ht⟩ := trimEnd_isPrefix (trimStart cs)
  have h := trimStart_eq_self_iff.1 (trimStart_trimStart cs)
  refine h c ?_
  rw [← ht]
  cases he : trimEnd (trimStart cs) with
  | nil => simp [he] at hc
  | cons d ds => simpa [he] using hc

theorem trim_trim (cs : List Char) : trim (trim cs) = trim cs := by
  simp only [trim, trimStart_trimEnd_trimStart, trimEnd_trimEnd]

theorem trimEnd_eq_self_iff {cs : List Char} :
    trimEnd cs = cs ↔ ∀ c ∈ cs.getLast?, isBlank c = false := by
  have h : trimStart cs.reverse = cs.reverse ↔ ∀ c ∈ cs.reverse.head?, isBlank c = false :=
    trimStart_eq_self_iff
  rw [List.head?_reverse] at h
  rw [← h, trimEnd, trimStart]
  constructor
  · intro hcs
    rw [← List.reverse_inj, List.reverse_reverse]
    exact hcs.symm ▸ rfl
  · intro hcs
    rw [hcs, List.reverse_reverse]

/-- A text is trimmed iff no blank character stands at its ends. -/
theorem trim_eq_self_iff {cs : List Char} :
    trim cs = cs ↔
      (∀ c ∈ cs.head?, isBlank c = false) ∧ ∀ c ∈ cs.getLast?, isBlank c = false := by
  rw [← trimStart_eq_self_iff, ← trimEnd_eq_self_iff]
  constructor
  · intro h
    rw [← h, trim, trimStart_trimEnd_trimStart, trimEnd_trimEnd]
    exact ⟨rfl, rfl⟩
  · rintro ⟨hstart, hend⟩
    rw [trim, hstart, hend]

theorem trimStart_eq_nil_iff {cs : List Char} :
    trimStart cs = [] ↔ ∀ c ∈ cs, isBlank c = true := by
  induction cs with
  | nil => simp [trimStart]
  | cons c cs ih =>
    rw [List.forall_mem_cons, ← ih, trimStart, List.dropWhile_cons]
    split
    · next h => simp [h, trimStart]
    · next h => simp [h]

/-- Nothing is left of a text iff it is blank. -/
theorem trim_eq_nil_iff {cs : List Char} : trim cs = [] ↔ ∀ c ∈ cs, isBlank c = true := by
  have hend : trimEnd (trimStart cs) = [] ↔ trimStart (trimStart cs).reverse = [] :=
    List.reverse_eq_nil_iff
  have hstart : trimStart (trimStart cs) = [] ↔ ∀ c ∈ trimStart cs, isBlank c = true :=
    trimStart_eq_nil_iff
  rw [trimStart_trimStart] at hstart
  rw [trim, hend, ← trimStart_eq_nil_iff, hstart, trimStart_eq_nil_iff]
  simp only [List.mem_reverse]

end Prospectus.Text
