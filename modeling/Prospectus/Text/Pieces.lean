import Prospectus.Text.Blank

/-!
# Pieces of a text

Cutting a text at a separator, joining pieces again, and looking for a text inside another one.
`joinWith_splitOn` says that joining undoes cutting.
-/

namespace Prospectus.Text

/-- What follows `lead` in a text that starts with it. -/
def afterLead? : List Char → List Char → Option (List Char)
  | [], cs => some cs
  | _ :: _, [] => none
  | l :: ls, c :: cs => if l = c then afterLead? ls cs else none

/-- Whether the text starts with `lead`. -/
def startsWith (cs lead : List Char) : Bool := (afterLead? lead cs).isSome

/-- Whether `part` stands somewhere in the text. -/
def holds (part : List Char) : List Char → Bool
  | [] => part.isEmpty
  | c :: cs => startsWith (c :: cs) part || holds part cs

/-- The pieces between the occurrences of a separator, which are found from the left and do not
overlap. `skip` counts the characters of an occurrence that are still to be passed over, and
`piece` holds the characters of the open piece, the last one first. -/
def splitFrom (sep : List Char) : (skip : Nat) → (piece : List Char) → List Char → List (List Char)
  | _, piece, [] => [piece.reverse]
  | skip + 1, piece, _ :: cs => splitFrom sep skip piece cs
  | 0, piece, c :: cs =>
    if startsWith (c :: cs) sep then piece.reverse :: splitFrom sep (sep.length - 1) [] cs
    else splitFrom sep 0 (c :: piece) cs

/-- The pieces between the occurrences of a separator that is not empty. A text without the
separator is one piece, also when it is empty. -/
def splitOn (sep cs : List Char) : List (List Char) := splitFrom sep 0 [] cs

/-- The pieces in order with a separator between neighbours. -/
def joinWith (sep : List Char) : List (List Char) → List Char
  | [] => []
  | [p] => p
  | p :: q :: ps => p ++ sep ++ joinWith sep (q :: ps)

/-- Texts in order with a separator between neighbours. -/
def join (sep : String) (pieces : List String) : String :=
  String.ofList (joinWith sep.toList (pieces.map String.toList))

/-- Every `old` becomes `new`. -/
def replaceChar (old : Char) (new : List Char) (s : String) : String :=
  String.ofList (s.toList.flatMap fun c => if c = old then new else [c])

/-! ### Cutting and joining -/

theorem afterLead?_eq_some_iff {lead cs rest : List Char} :
    afterLead? lead cs = some rest ↔ cs = lead ++ rest := by
  induction lead generalizing cs with
  | nil => simp [afterLead?, eq_comm]
  | cons l ls ih =>
    cases cs with
    | nil => simp [afterLead?]
    | cons c cs =>
      by_cases h : l = c
      · simp [afterLead?, h, ih]
      · simp [afterLead?, h, Ne.symm h]

theorem startsWith_iff {cs lead : List Char} : startsWith cs lead = true ↔ lead <+: cs := by
  simp only [startsWith, Option.isSome_iff_exists, afterLead?_eq_some_iff]
  exact ⟨fun ⟨r, h⟩ => ⟨r, h.symm⟩, fun ⟨r, h⟩ => ⟨r, h.symm⟩⟩

theorem holds_iff {part cs : List Char} : holds part cs = true ↔ part <:+: cs := by
  induction cs with
  | nil => simp [holds]
  | cons c cs ih => simp [holds, startsWith_iff, ih, List.infix_cons_iff]

theorem splitFrom_ne_nil (sep : List Char) (skip : Nat) (piece cs : List Char) :
    splitFrom sep skip piece cs ≠ [] := by
  induction cs generalizing skip piece with
  | nil => simp [splitFrom]
  | cons c cs ih =>
    cases skip with
    | succ n => simpa [splitFrom] using ih n piece
    | zero =>
      simp only [splitFrom]
      split
      · simp
      · exact ih 0 _

theorem joinWith_cons {sep p : List Char} {ps : List (List Char)} (h : ps ≠ []) :
    joinWith sep (p :: ps) = p ++ sep ++ joinWith sep ps := by
  cases ps with
  | nil => exact absurd rfl h
  | cons q ps => rfl

theorem joinWith_splitFrom (sep : List Char) (hs : sep ≠ []) (skip : Nat) (piece cs : List Char)
    (hskip : skip ≤ cs.length) :
    joinWith sep (splitFrom sep skip piece cs) = piece.reverse ++ cs.drop skip := by
  induction cs generalizing skip piece with
  | nil => simp [splitFrom, joinWith]
  | cons c cs ih =>
    cases skip with
    | succ n => simpa [splitFrom] using ih n piece (by simpa using hskip)
    | zero =>
      simp only [splitFrom]
      split
      · next h =>
        obtain ⟨r, hr⟩ := startsWith_iff.1 h
        cases sep with
        | nil => exact absurd rfl hs
        | cons s ss =>
          obtain ⟨rfl, rfl⟩ := List.cons.inj hr
          -- the rest of the separator is passed over by `skip` before the next piece begins
          rw [joinWith_cons (splitFrom_ne_nil _ _ _ _), ih _ _ (by simp)]
          simp
      · simpa using ih 0 (c :: piece) (by simp)

/-- Joining the pieces with the separator gives the text back. -/
theorem joinWith_splitOn {sep : List Char} (hs : sep ≠ []) (cs : List Char) :
    joinWith sep (splitOn sep cs) = cs := by
  simpa [splitOn] using joinWith_splitFrom sep hs 0 [] cs (Nat.zero_le _)

end Prospectus.Text
