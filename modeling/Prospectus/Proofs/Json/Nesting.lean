import Mathlib.Order.MinMax
import Prospectus.Proofs.Json.Tokens
import Prospectus.Proofs.Traversal
import Prospectus.Json.Decode

/-! # Nested trees

A reader has at most `Source.maxDepth` arrays and objects open at once. Of a deeper tree it meets
`Json.within`: the tree with everything that lies too deep replaced by something unreadable. So a
tree comes back from its tokens as far as its height allows (`Source.ofTokens_tokens`), and what was
read from tokens is nowhere higher than that (`Source.height_ofTokens_le`).

The bound is on what is open at once and not on the size, so it is a bound on the height. It matters
because the same value stands at different heights in different documents: what fits into a snapshot
may be too deep in the catalogue that is made of it, which puts the rules of each year one level
further down. -/

namespace Prospectus.Json

/-! ### Height

The height of a tree counts the arrays and objects around its deepest part. For arrays and objects
alike it is at most `room + 1` if all that stands in them is at most `room`, which is the form in
which it is used. -/

mutual

/-- How many arrays and objects are open at most around a part of the tree. -/
def height : Json → Nat
  | .arr items => itemsHeight items + 1
  | .obj members => membersHeight members + 1
  | .null | .bool _ | .num _ | .str _ => 0

def itemsHeight : List Json → Nat
  | [] => 0
  | x :: xs => max (height x) (itemsHeight xs)

def membersHeight : List (String × Json) → Nat
  | [] => 0
  | (_, x) :: ms => max (height x) (membersHeight ms)

end

theorem itemsHeight_le_iff {items : List Json} {room : Nat} :
    itemsHeight items ≤ room ↔ ∀ x ∈ items, x.height ≤ room := by
  induction items with
  | nil => simp [itemsHeight]
  | cons x xs ih => simp [itemsHeight, ih]

theorem membersHeight_le_iff {members : List (String × Json)} {room : Nat} :
    membersHeight members ≤ room ↔ ∀ m ∈ members, m.2.height ≤ room := by
  induction members with
  | nil => simp [membersHeight]
  | cons m ms ih => simp [membersHeight, ih]

theorem height_arr_le_iff {items : List Json} {room : Nat} :
    (arr items).height ≤ room + 1 ↔ ∀ x ∈ items, x.height ≤ room := by
  rw [height, Nat.add_le_add_iff_right, itemsHeight_le_iff]

theorem height_obj_le_iff {members : List (String × Json)} {room : Nat} :
    (obj members).height ≤ room + 1 ↔ ∀ m ∈ members, m.2.height ≤ room := by
  rw [height, Nat.add_le_add_iff_right, membersHeight_le_iff]

mutual

/-- Normal forms are not higher. Sorting moves members, and dropping repeated names leaves some out.
-/
theorem height_normalize_le : (j : Json) → j.normalize.height ≤ j.height
  | .null | .bool _ | .num _ | .str _ => Nat.le_refl _
  | .arr items => by
    rw [normalize, height, height, Nat.add_le_add_iff_right]
    exact itemsHeight_normalize_le items
  | .obj members => by
    rw [normalize, height, height, Nat.add_le_add_iff_right]
    -- sorting members and dropping those that a later one replaces only leaves members out
    refine membersHeight_le_iff.mpr fun m hm => ?_
    exact membersHeight_le_iff.mp (membersHeight_normalize_le members) m (mem_ofList hm)

theorem itemsHeight_normalize_le :
    (items : List Json) → itemsHeight (normalizeItems items) ≤ itemsHeight items
  | [] => Nat.le_refl _
  | x :: xs => max_le_max (height_normalize_le x) (itemsHeight_normalize_le xs)

theorem membersHeight_normalize_le :
    (members : List (String × Json)) →
      membersHeight (normalizeMembers members) ≤ membersHeight members
  | [] => Nat.le_refl _
  | (_, x) :: ms => max_le_max (height_normalize_le x) (membersHeight_normalize_le ms)

end

/-! ### Trees in limited room

How a tree is met depends on the room that is left for it. With room enough it is met as it is; with
less, parts of it are unreadable. A reader may pass over such a part, for instance under a name that
it does not know, but reading it as a value fails. So what was read in full had room enough. -/

mutual

/-- A tree as it is met where no more than `room` further arrays and objects may be open: those
beyond cannot be read. Everything else is as in the tree, the ending of each array and object
included. -/
def within : Json → (room : Nat) → Source
  | .null, _ => .null
  | .bool b, _ => .bool b
  | .num n, _ => .num n
  | .str s, _ => .str s
  | .arr _, 0 => .unreadable
  | .arr items, room + 1 => .arr (withinItems items room) .closed
  | .obj _, 0 => .unreadable
  | .obj members, room + 1 => .obj (withinMembers members room) .closed

def withinItems : List Json → Nat → List Source
  | [], _ => []
  | x :: xs, room => within x room :: withinItems xs room

def withinMembers : List (String × Json) → Nat → List (Option String × Source)
  | [], _ => []
  | (k, x) :: ms, room => (some k, within x room) :: withinMembers ms room

end

theorem withinItems_eq_map (items : List Json) (room : Nat) :
    withinItems items room = items.map fun j => j.within room := by
  induction items with
  | nil => rfl
  | cons x xs ih => rw [withinItems, ih, List.map_cons]

mutual

/-- A tree that has room enough is met without faults. -/
theorem within_eq_ofJson : {j : Json} → {room : Nat} → j.height ≤ room → j.within room = .ofJson j
  | .null, _, _ | .bool _, _, _ | .num _, _, _ | .str _, _, _ => by simp [within, Source.ofJson]
  | .arr items, room + 1, h => by
    rw [within, Source.ofJson, withinItems_eq_ofItems (Nat.le_of_succ_le_succ h)]
  | .obj members, room + 1, h => by
    rw [within, Source.ofJson, withinMembers_eq_ofMembers (Nat.le_of_succ_le_succ h)]

theorem withinItems_eq_ofItems : {items : List Json} → {room : Nat} → itemsHeight items ≤ room →
    withinItems items room = Source.ofItems items
  | [], _, _ => rfl
  | _ :: _, _, h => by
    obtain ⟨hx, hxs⟩ := max_le_iff.mp h
    rw [withinItems, within_eq_ofJson hx, withinItems_eq_ofItems hxs, Source.ofItems]

theorem withinMembers_eq_ofMembers : {members : List (String × Json)} → {room : Nat} →
    membersHeight members ≤ room → withinMembers members room = Source.ofMembers members
  | [], _, _ => rfl
  | (_, _) :: _, _, h => by
    obtain ⟨hx, hms⟩ := max_le_iff.mp h
    rw [withinMembers, within_eq_ofJson hx, withinMembers_eq_ofMembers hms, Source.ofMembers]

end

mutual

/-- A tree can be passed over however deep it is. -/
theorem skip_within : (j : Json) → (room : Nat) → (j.within room).skip = .ok ()
  | .null, _ | .bool _, _ | .num _, _ | .str _, _ | .arr _, 0 | .obj _, 0 => by
    simp [within, Source.skip]
  | .arr items, room + 1 => by
    rw [within, Source.skip, skipItems_within items room]
    rfl
  | .obj members, room + 1 => by
    rw [within, Source.skip, skipMembers_within members room]
    rfl

theorem skipItems_within : (items : List Json) → (room : Nat) →
    Source.skipItems (withinItems items room) = .ok ()
  | [], _ => rfl
  | x :: xs, room => by
    rw [withinItems, Source.skipItems, skip_within x room]
    exact skipItems_within xs room

theorem skipMembers_within : (members : List (String × Json)) → (room : Nat) →
    Source.skipMembers (withinMembers members room) = .ok ()
  | [], _ => rfl
  | (_, x) :: ms, room => by
    rw [withinMembers, Source.skipMembers, skip_within x room]
    exact skipMembers_within ms room

end

mutual

/-- What is read in full had room enough. This is the converse of `within_eq_ofJson`. -/
theorem height_le_of_toJson_within : {j k : Json} → {room : Nat} →
    (j.within room).toJson = .ok k → j.height ≤ room
  | .null, _, _, _ | .bool _, _, _, _ | .num _, _, _, _ | .str _, _, _, _ => Nat.zero_le _
  | .arr _, _, 0, h | .obj _, _, 0, h => by cases h
  | .arr items, _, room + 1, h => by
    rw [within, Source.toJson] at h
    obtain ⟨xs, hxs, -⟩ := bind_eq_ok_iff.mp h
    exact Nat.succ_le_succ (itemsHeight_le_of_toJson_within hxs)
  | .obj members, _, room + 1, h => by
    rw [within, Source.toJson] at h
    obtain ⟨ms, hms, -⟩ := bind_eq_ok_iff.mp h
    exact Nat.succ_le_succ (membersHeight_le_of_toJson_within hms)

theorem itemsHeight_le_of_toJson_within : {items xs : List Json} → {room : Nat} →
    Source.toJsonItems (withinItems items room) = .ok xs → itemsHeight items ≤ room
  | [], _, _, _ => Nat.zero_le _
  | _ :: _, _, _, h => by
    rw [withinItems, Source.toJsonItems] at h
    obtain ⟨y, hy, h⟩ := bind_eq_ok_iff.mp h
    obtain ⟨ys, hys, -⟩ := bind_eq_ok_iff.mp h
    exact max_le (height_le_of_toJson_within hy) (itemsHeight_le_of_toJson_within hys)

theorem membersHeight_le_of_toJson_within : {members ms : List (String × Json)} → {room : Nat} →
    Source.toJsonMembers (withinMembers members room) = .ok ms → membersHeight members ≤ room
  | [], _, _, _ => Nat.zero_le _
  | (_, _) :: _, _, _, h => by
    rw [withinMembers, Source.toJsonMembers] at h
    obtain ⟨y, hy, h⟩ := bind_eq_ok_iff.mp h
    obtain ⟨ys, hys, -⟩ := bind_eq_ok_iff.mp h
    exact max_le (height_le_of_toJson_within hy) (membersHeight_le_of_toJson_within hys)

end

mutual

/-- A tree without faults is read as itself. -/
theorem toJson_ofJson : (j : Json) → (Source.ofJson j).toJson = .ok j
  | .null | .bool _ | .num _ | .str _ => rfl
  | .arr items => by
    rw [Source.ofJson, Source.toJson, toJsonItems_ofItems items]
    rfl
  | .obj members => by
    rw [Source.ofJson, Source.toJson, toJsonMembers_ofMembers members]
    rfl

theorem toJsonItems_ofItems : (items : List Json) →
    Source.toJsonItems (Source.ofItems items) = .ok items
  | [] => rfl
  | x :: xs => by
    rw [Source.ofItems, Source.toJsonItems, toJson_ofJson x, toJsonItems_ofItems xs]
    rfl

theorem toJsonMembers_ofMembers : (members : List (String × Json)) →
    Source.toJsonMembers (Source.ofMembers members) = .ok members
  | [] => rfl
  | (_, x) :: ms => by
    rw [Source.ofMembers, Source.toJsonMembers, toJson_ofJson x, toJsonMembers_ofMembers ms]
    rfl

end

end Prospectus.Json
