import Prospectus.Dict.Basic
import Prospectus.Json.Basic

/-!
# Trees in normal form

A tree is normal if each of its objects lists its members by ascending name, each name once.
`normalize` brings a tree into that form, of a repeated name keeping the last member;
`normalize_of_normal` says that it leaves a normal tree alone. `Value` is the type of normal
trees, on which equality is equality of what the tree says.
-/

namespace Prospectus.Json

mutual

/-- Every object lists its members by ascending name. -/
def Normal : Json → Prop
  | .null | .bool _ | .num _ | .str _ => True
  | .arr items => NormalItems items
  | .obj members =>
    (members.Pairwise fun a b => compare a.1 b.1 = .lt) ∧ NormalMembers members

def NormalItems : List Json → Prop
  | [] => True
  | x :: xs => x.Normal ∧ NormalItems xs

def NormalMembers : List (String × Json) → Prop
  | [] => True
  | (_, x) :: ms => x.Normal ∧ NormalMembers ms

end

mutual

def normalize : Json → Json
  | .arr items => .arr (normalizeItems items)
  | .obj members => .obj (Dict.ofList (normalizeMembers members)).entries
  | .null => .null
  | .bool b => .bool b
  | .num n => .num n
  | .str s => .str s

def normalizeItems : List Json → List Json
  | [] => []
  | x :: xs => x.normalize :: normalizeItems xs

def normalizeMembers : List (String × Json) → List (String × Json)
  | [] => []
  | (k, x) :: ms => (k, x.normalize) :: normalizeMembers ms

end

theorem normalItems_iff {items : List Json} : NormalItems items ↔ ∀ x ∈ items, x.Normal := by
  induction items with
  | nil => simp [NormalItems]
  | cons x xs ih => simp [NormalItems, ih]

theorem normalMembers_iff {members : List (String × Json)} :
    NormalMembers members ↔ ∀ m ∈ members, m.2.Normal := by
  induction members with
  | nil => simp [NormalMembers]
  | cons m ms ih => simp [NormalMembers, ih]

theorem mem_ofList {α : Type _} {es : List (String × α)} {k : String} {x : α}
    (h : (k, x) ∈ (Dict.ofList es).entries) : (k, x) ∈ es := by
  rw [Dict.mem_entries_iff, Dict.ofList, Dict.find?_insertAll, Dict.find?_empty,
    Option.or_none] at h
  exact List.mem_reverse.1 (Dict.mem_of_findIn? h)

mutual

theorem normal_normalize : (j : Json) → j.normalize.Normal
  | .null | .bool _ | .num _ | .str _ => by simp [normalize, Normal]
  | .arr items => by
    rw [normalize, Normal]
    exact normalItems_normalize items
  | .obj members => by
    rw [normalize, Normal]
    refine ⟨(Dict.ofList _).ascending, normalMembers_iff.2 fun m hm => ?_⟩
    exact normalMembers_iff.1 (normalMembers_normalize members) m (mem_ofList hm)

theorem normalItems_normalize : (items : List Json) → NormalItems (normalizeItems items)
  | [] => by simp [normalizeItems, NormalItems]
  | x :: xs => ⟨normal_normalize x, normalItems_normalize xs⟩

theorem normalMembers_normalize :
    (members : List (String × Json)) → NormalMembers (normalizeMembers members)
  | [] => by simp [normalizeMembers, NormalMembers]
  | (_, x) :: ms => ⟨normal_normalize x, normalMembers_normalize ms⟩

end

mutual

theorem normalize_of_normal : {j : Json} → j.Normal → j.normalize = j
  | .null, _ | .bool _, _ | .num _, _ | .str _, _ => by simp [normalize]
  | .arr items, h => by rw [normalize, normalizeItems_of_normal h]
  | .obj members, h => by
    rw [normalize, normalizeMembers_of_normal h.2]
    exact congrArg (fun d : Dict String Json => Json.obj d.entries)
      (Dict.ofList_entries ⟨members, h.1⟩)

theorem normalizeItems_of_normal :
    {items : List Json} → NormalItems items → normalizeItems items = items
  | [], _ => rfl
  | _ :: _, h => by rw [normalizeItems, normalize_of_normal h.1, normalizeItems_of_normal h.2]

theorem normalizeMembers_of_normal :
    {members : List (String × Json)} → NormalMembers members → normalizeMembers members = members
  | [], _ => rfl
  | (_, _) :: _, h => by
    rw [normalizeMembers, normalize_of_normal h.1, normalizeMembers_of_normal h.2]

end

/-- A tree in normal form. -/
structure Value where
  tree : Json
  normal : tree.Normal
  deriving DecidableEq

namespace Value

/-- The normal form of a tree, as a value. -/
def ofJson (j : Json) : Value := ⟨j.normalize, normal_normalize j⟩

def text (s : String) : Value := ⟨.str s, by simp [Normal]⟩

/-- Change a text and leave every other value alone. -/
def mapText (f : String → String) (v : Value) : Value :=
  match v.tree with
  | .str s => text (f s)
  | _ => v

theorem ofJson_tree (v : Value) : ofJson v.tree = v := by
  obtain ⟨j, h⟩ := v
  simp [ofJson, normalize_of_normal h]

@[simp] theorem tree_text (s : String) : (text s).tree = .str s := rfl

@[simp] theorem mapText_text (f : String → String) (s : String) :
    (text s).mapText f = text (f s) := rfl

end Value

end Prospectus.Json
