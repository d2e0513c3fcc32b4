import Prospectus.Json.Normal
import Prospectus.Text.Pieces
import Prospectus.Text.Quoted

/-!
# Unused settings

A leaf of a tree, which is anything but an array or an object, has a pointer: the names and
indexes that lead to it, a slash before each. Leaves that no setting reads are reported.
-/

namespace Prospectus.Settings

open Json (Value)

/-! ### Pointers -/

/-- A name in a pointer: `~0` stands for a tilde and `~1` for a slash. -/
def escapeName (name : String) : List Char :=
  name.toList.flatMap fun c =>
    if c = '~' then ['~', '0'] else if c = '/' then ['~', '1'] else [c]

def indexText (i : Nat) : List Char := (toString i).toList

mutual

/-- The pointers of the leaves of a tree to which `lead` leads. -/
def leavesFrom (lead : List Char) : Json → List (List Char)
  | .arr items => itemLeaves lead 0 items
  | .obj members => memberLeaves lead members
  | .null | .bool _ | .num _ | .str _ => [lead]

/-- The pointers of the leaves of items, the first of which has the index `i`. -/
def itemLeaves (lead : List Char) (i : Nat) : List Json → List (List Char)
  | [] => []
  | x :: xs => leavesFrom (lead ++ '/' :: indexText i) x ++ itemLeaves lead (i + 1) xs

/-- The pointers of the leaves of members. -/
def memberLeaves (lead : List Char) : List (String × Json) → List (List Char)
  | [] => []
  | (k, x) :: ms => leavesFrom (lead ++ '/' :: escapeName k) x ++ memberLeaves lead ms

end

/-- A pointer as a text; the tree itself has a slash for its pointer. -/
def pointerText (pointer : List Char) : String :=
  if pointer.isEmpty then "/" else String.ofList pointer

/-- The pointers of the leaves of a tree. An empty array or object has no leaves, and so nothing to
report. -/
def leafPointers (v : Value) : List String := (leavesFrom [] v.tree).map pointerText

/-! ### What is read -/

/-- The pointers of all settings, ascending. -/
def readPointers : List String := [
  "/availability/cycle_length",
  "/catalog/course",
  "/catalog/output_file",
  "/catalog/school",
  "/scrub/personal_literals",
  "/scrub/personal_patterns",
  "/snapshots/dir",
  "/snapshots/prefix"]

/-- Whether a pointer is `upper` or leads on from it. The pointer of the tree itself covers all. -/
def covers (upper pointer : String) : Bool :=
  upper == "/" || match Text.afterLead? upper.toList pointer.toList with
    | some [] => true
    | some (c :: _) => c == '/'
    | none => false

/-- A pointer covers itself and what a slash leads on to, and the pointer of the tree covers all. -/
theorem covers_iff {upper pointer : String} : covers upper pointer = true ↔
    upper = "/" ∨ pointer = upper ∨ ∃ rest, pointer.toList = upper.toList ++ '/' :: rest := by
  rw [covers, Bool.or_eq_true, beq_iff_eq]
  refine or_congr_right ?_
  split
  · next h =>
    have h : pointer = upper := String.ext (by simpa using Text.afterLead?_eq_some_iff.1 h)
    exact ⟨fun _ => .inl h, fun _ => rfl⟩
  · next c rest h =>
    have h := Text.afterLead?_eq_some_iff.1 h
    constructor
    · intro hc
      exact .inr ⟨rest, by simpa [beq_iff_eq.1 hc] using h⟩
    · rintro (rfl | ⟨rest', h'⟩)
      · simp at h
      · obtain ⟨rfl, -⟩ : '/' = c ∧ rest' = rest := by simpa [h'] using h
        simp
  · next h =>
    have none (rest : List Char) : pointer.toList ≠ upper.toList ++ rest := by
      intro h'
      simp [Text.afterLead?_eq_some_iff.2 h'] at h
    simp only [Bool.false_eq_true, false_iff, not_or, not_exists]
    exact ⟨fun h' => none [] (by simp [h']), fun rest => none _⟩

/-- Whether a setting is read at a pointer or above it. What stands below a setting belongs to it,
whatever its shape is. -/
def isRead (pointer : String) : Bool := readPointers.any fun upper => covers upper pointer

/-- The pointers of the leaves that no setting reads, ascending and each once. -/
def unusedPointers (v : Value) : List String :=
  (((leafPointers v).filter fun p => !isRead p).mergeSort fun a b => (compare a b).isLE).eraseReps

/-! ### Refusing unused settings -/

/-- The leaves that nothing reads, as a reason to refuse settings. -/
structure UnusedError where
  pointers : List String
  deriving DecidableEq

/-- How many pointers a message shows. -/
def shownPointers : Nat := 12

def UnusedError.message (e : UnusedError) : String :=
  s!"CONFIG_UNUSED_KEYS: {e.pointers.length} unused config leaf key(s) detected. " ++
    "Remove them or update the consumed registry. First few: " ++
    Text.quotedList (e.pointers.take shownPointers)

/-- What to do about leaves that nothing reads: give them back, or refuse the settings because of
them. -/
inductive UnusedPolicy
  | tell
  | refuse
  deriving DecidableEq

/-- The pointers of the leaves that nothing reads, if the policy puts up with them. Settings without
such leaves pass under either policy. -/
def reportUnused (policy : UnusedPolicy) (v : Value) : Except UnusedError (List String) :=
  let pointers := unusedPointers v
  if policy = .refuse ∧ pointers ≠ [] then .error ⟨pointers⟩ else .ok pointers

end Prospectus.Settings
