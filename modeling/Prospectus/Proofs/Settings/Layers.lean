import Mathlib.Data.List.Induction
import Prospectus.Proofs.Traversal
import Prospectus.Settings.Reading

/-!
# The last layer wins

Settings are looked up along paths of names. A layer decides a path if it holds something there, or
if something that is no object stands in the way (`Json.Decides`). Laying one tree over another, the
upper tree tells what is held at the paths that it decides, and the lower one at all others:

    outlineAt?_overlay : (overlay below above).outlineAt? path =
      if above.Decides path then above.outlineAt? path else below.outlineAt? path

Objects are merged, so of an object the outline keeps only that it is one. Through a list of layers
the last one that decides a path wins (`Settings.outlineAt?_mergeLayers`), and what it says is held
by the merged layers (`Settings.mergeLayers_last_wins`).
-/

namespace Prospectus

namespace Json

/-! ### Looking up a path

A path of names leads into objects only; nothing is found in an array or behind a text. A tree can
hold nothing at a path and still have the say there, if something on the way is no object: whatever
another tree holds further down is then out of reach. -/

/-- What a tree holds at a path of names. Only objects have names. -/
def at? : Json → List String → Option Json
  | j, [] => some j
  | .obj members, name :: path =>
    match Dict.findIn? name members with
    | some x => x.at? path
    | none => none
  | _, _ :: _ => none

def IsObject : Json → Prop
  | .obj _ => True
  | .null | .bool _ | .num _ | .str _ | .arr _ => False

instance : (j : Json) → Decidable j.IsObject
  | .obj _ => isTrue trivial
  | .null | .bool _ | .num _ | .str _ | .arr _ => isFalse id

/-- The tree says what is held at a path: it holds something there, or something that is no object
on the way. In the second case it says that nothing is held. -/
def Decides (j : Json) (path : List String) : Prop :=
  (∃ x, j.at? path = some x) ∨
    ∃ upper x, upper <+: path ∧ upper ≠ path ∧ j.at? upper = some x ∧ ¬ x.IsObject

section

variable {j : Json} {members : List (String × Json)} {name : String} {path : List String}

@[simp] theorem at?_nil (j : Json) : j.at? [] = some j := by
  cases j <;> rfl

theorem at?_cons_of_not_isObject (h : ¬ j.IsObject) : j.at? (name :: path) = none := by
  cases j with
  | obj members => exact absurd trivial h
  | null | bool _ | num _ | str _ | arr _ => rfl

theorem at?_cons_obj : (obj members).at? (name :: path) =
    (Dict.findIn? name members).bind fun x => x.at? path := by
  rw [at?]
  cases Dict.findIn? name members <;> rfl

theorem decides_nil (j : Json) : j.Decides [] := .inl ⟨j, at?_nil j⟩

theorem decides_cons_of_not_isObject (h : ¬ j.IsObject) : j.Decides (name :: path) :=
  .inr ⟨[], j, List.nil_prefix, by simp, at?_nil j, h⟩

theorem decides_cons_obj_iff : (obj members).Decides (name :: path) ↔
    ∃ x, Dict.findIn? name members = some x ∧ x.Decides path := by
  constructor
  · -- the path itself is there, or something on the way is no object
    rintro (⟨y, hy⟩ | ⟨upper, y, hupper, hne, hy, hobj⟩)
    · rw [at?_cons_obj] at hy
      obtain ⟨x, hx, hxy⟩ := Option.bind_eq_some_iff.mp hy
      exact ⟨x, hx, .inl ⟨y, hxy⟩⟩
    · cases upper with
      | nil =>
        -- the tree itself is an object, so it does not stand in the way
        rw [at?_nil] at hy
        cases hy
        exact absurd trivial hobj
      | cons name' upper =>
        obtain ⟨rfl, hprefix⟩ := List.cons_prefix_cons.mp hupper
        rw [at?_cons_obj] at hy
        obtain ⟨x, hx, hxy⟩ := Option.bind_eq_some_iff.mp hy
        exact ⟨x, hx, .inr ⟨upper, y, hprefix, fun h => hne (h ▸ rfl), hxy, hobj⟩⟩
  · rintro ⟨x, hx, ⟨y, hy⟩ | ⟨upper, y, hupper, hne, hy, hobj⟩⟩
    · exact .inl ⟨y, by rw [at?_cons_obj, hx]; exact hy⟩
    · refine .inr ⟨name :: upper, y, List.cons_prefix_cons.mpr ⟨rfl, hupper⟩, ?_, ?_, hobj⟩
      · exact fun h => hne (List.cons.inj h).2
      · rw [at?_cons_obj, hx]
        exact hy

theorem decides_cons_obj_of_findIn? {x : Json} (h : Dict.findIn? name members = some x) :
    (obj members).Decides (name :: path) ↔ x.Decides path := by
  rw [decides_cons_obj_iff, h]
  simp

theorem not_decides_cons_obj (h : Dict.findIn? name members = none) :
    ¬ (obj members).Decides (name :: path) := by
  rw [decides_cons_obj_iff, h]
  simp

theorem at?_eq_none_of_not_decides (h : ¬ j.Decides path) : j.at? path = none :=
  Option.eq_none_iff_forall_ne_some.mpr fun x hx => h (.inl ⟨x, hx⟩)

end

instance decidableDecides : (j : Json) → (path : List String) → Decidable (j.Decides path)
  | j, [] => isTrue (decides_nil j)
  | .null, _ :: _ | .bool _, _ :: _ | .num _, _ :: _ | .str _, _ :: _ | .arr _, _ :: _ =>
    isTrue (decides_cons_of_not_isObject id)
  | .obj members, name :: path =>
    match h : Dict.findIn? name members with
    | none => isFalse (not_decides_cons_obj h)
    | some x =>
      have := decidableDecides x path
      decidable_of_iff (x.Decides path) (decides_cons_obj_of_findIn? h).symm

/-! ### One tree over another

Overlaying goes by names as long as there are objects on both sides, and otherwise takes the upper
tree. That an object meets an object is the one case in which both trees contribute, so what is held
at a path cannot be said by one of them; the outline, which forgets the members, can. -/

/-- A tree from the outside: of an object no member is seen. Anything else is seen as it is, lists
included. -/
def outline : Json → Json
  | .obj _ => .obj []
  | j => j

theorem outline_eq_iff_of_not_isObject {j x : Json} (h : ¬ x.IsObject) : j.outline = x ↔ j = x := by
  cases j with
  | obj members =>
    constructor
    · rintro rfl
      exact absurd trivial h
    · rintro rfl
      exact absurd trivial h
  | null | bool _ | num _ | str _ | arr _ => rfl

theorem outline_eq_obj_iff {j : Json} : j.outline = .obj [] ↔ j.IsObject := by
  cases j <;> simp [outline, IsObject]

def outlineAt? (j : Json) (path : List String) : Option Json := (j.at? path).map outline

theorem outlineAt?_cons_obj {members : List (String × Json)} {name : String} {path : List String} :
    (obj members).outlineAt? (name :: path) =
      (Dict.findIn? name members).bind fun x => x.outlineAt? path := by
  rw [outlineAt?, at?_cons_obj, Option.map_bind]
  rfl

theorem outlineAt?_getD_null {path : List String} (h : path ≠ []) (x? : Option Json) :
    (x?.getD .null).outlineAt? path = x?.bind fun x => x.outlineAt? path := by
  cases x? with
  | some x => rfl
  | none =>
    obtain ⟨name, path, rfl⟩ := List.exists_cons_of_ne_nil h
    rfl

theorem outlineAt?_eq_some_iff {j x : Json} {path : List String} (h : ¬ x.IsObject) :
    j.outlineAt? path = some x ↔ j.at? path = some x := by
  simp only [outlineAt?, Option.map_eq_some_iff, outline_eq_iff_of_not_isObject h,
    exists_eq_right]

theorem outlineAt?_eq_obj_iff {j : Json} {path : List String} :
    j.outlineAt? path = some (.obj []) ↔ ∃ x : Json, x.IsObject ∧ j.at? path = some x := by
  simp only [outlineAt?, Option.map_eq_some_iff, outline_eq_obj_iff, and_comm]

/-- Under a name of the upper tree stands its own value, laid over what the lower tree has under
that name. The lower tree gives the other names. -/
theorem findIn?_overlayMembers (name : String) {above : List (String × Json)}
    (habove : above.Pairwise fun a b => compare a.1 b.1 = .lt) {below : List (String × Json)}
    (hbelow : below.Pairwise fun a b => compare a.1 b.1 = .lt) :
    Dict.findIn? name (overlayMembers below above) =
      match Dict.findIn? name above with
      | some x => some (overlay ((Dict.findIn? name below).getD .null) x)
      | none => Dict.findIn? name below := by
  induction above generalizing below with
  | nil => rw [overlayMembers, Dict.findIn?]
  | cons member above ih =>
    obtain ⟨k, x⟩ := member
    obtain ⟨hk, habove⟩ := List.pairwise_cons.mp habove
    rw [overlayMembers, ih habove (Dict.ascending_alterEntries k _ hbelow),
      Dict.findIn?_alterEntries _ _ _ hbelow, Dict.findIn?]
    by_cases heq : compare name k = .eq
    · -- the name comes only once in the upper tree
      obtain rfl := Std.LawfulEqOrd.eq_of_compare heq
      rw [Dict.findIn?_eq_none_of_lt hk]
      simp only [heq, if_true]
    · simp only [heq, if_false]

theorem outlineAt?_overlay (path : List String) {below above : Json} (hbelow : below.Normal)
    (habove : above.Normal) : (overlay below above).outlineAt? path =
      if above.Decides path then above.outlineAt? path else below.outlineAt? path := by
  induction path generalizing below above with
  | nil =>
    rw [if_pos (decides_nil above), outlineAt?, outlineAt?, at?_nil, at?_nil]
    -- at the end of the path: the upper object hides all but objects, anything else hides all
    cases above with
    | obj members => cases below <;> simp [overlay, outline]
    | null | bool _ | num _ | str _ | arr _ => rw [overlay_of_not_obj (by simp)]
  | cons name path ih =>
    -- what is no object decides every path
    cases above with
    | null | bool _ | num _ | str _ | arr _ =>
      rw [overlay_of_not_obj (by simp), if_pos (decides_cons_of_not_isObject id)]
    | obj above =>
      cases below with
      | null | bool _ | num _ | str _ | arr _ =>
        -- what lies below has no members, so nothing is lost where the object does not decide
        rw [overlay, ite_eq_left_iff.mpr]
        · intro h
          rw [outlineAt?, outlineAt?, at?_eq_none_of_not_decides h, at?_cons_of_not_isObject id]
        · simp
      | obj below =>
        rw [overlay_obj, outlineAt?_cons_obj, outlineAt?_cons_obj, outlineAt?_cons_obj,
          findIn?_overlayMembers name habove.1 hbelow.1]
        cases hx : Dict.findIn? name above with
        -- a name that the upper object does not have is left to the lower one
        | none => rw [if_neg (not_decides_cons_obj hx)]
        | some x =>
          have hxn : x.Normal := normalMembers_iff.mp habove.2 _ (Dict.mem_of_findIn? hx)
          have hyn : ((Dict.findIn? name below).getD .null).Normal := by
            cases hy : Dict.findIn? name below with
            | none => trivial
            | some y => exact normalMembers_iff.mp hbelow.2 _ (Dict.mem_of_findIn? hy)
          show (overlay _ x).outlineAt? path = _
          rw [ih hyn hxn]
          by_cases hd : x.Decides path
          · rw [if_pos hd, if_pos ((decides_cons_obj_of_findIn? hx).mpr hd)]
            rfl
          · -- at the end of the path everything decides, so the path goes on below the name
            have hpath : path ≠ [] := by
              rintro rfl
              exact hd (decides_nil x)
            rw [if_neg hd, if_neg (mt (decides_cons_obj_of_findIn? hx).mp hd),
              outlineAt?_getD_null hpath]

end Json

/-! ### A stack of layers

Layers are laid over the empty object from the first to the last, and a layer that is null is left
out. The induction is from the end of the list: the last layer decides a path, or it does not and
the layers before it are asked. -/

namespace Settings

open Json (Value)

/-- The trees that are laid over each other: the object without members, and then the layers that
are not null. -/
def stack (layers : List Value) : List Json :=
  .obj [] :: (layers.map Value.tree).filter (· ≠ .null)

/-- The layer stands in the stack, and no later one decides the path. Whether the layer itself
decides it is not asked. -/
def Uncovered (layers : List Json) (path : List String) (layer : Json) : Prop :=
  ∃ before after, layers = before ++ layer :: after ∧ ∀ later ∈ after, ¬ later.Decides path

section

variable {path : List String}

theorem uncovered_singleton_iff {top layer : Json} : Uncovered [top] path layer ↔ layer = top := by
  constructor
  · rintro ⟨before, after, h, -⟩
    obtain ⟨-, h⟩ | ⟨-, h⟩ := List.append_eq_singleton_iff.mp h.symm
    · exact (List.cons.inj h).1
    · cases h
  · rintro rfl
    exact ⟨[], [], rfl, by simp⟩

theorem uncovered_append_singleton_iff {layers : List Json} {top layer : Json} :
    Uncovered (layers ++ [top]) path layer ↔
      layer = top ∨ ¬ top.Decides path ∧ Uncovered layers path layer := by
  constructor
  · -- the last layer is the one in question, or the others follow it with the last among them
    rintro ⟨before, after, h, hafter⟩
    obtain rfl | ⟨after, last, rfl⟩ := List.eq_nil_or_concat' after
    · exact .inl (List.cons.inj (List.append_inj' h rfl).2).1.symm
    · rw [← List.cons_append, ← List.append_assoc] at h
      obtain ⟨rfl, hlast⟩ := List.append_inj' h rfl
      cases hlast
      refine .inr ⟨hafter _ (by simp), before, after, rfl, fun later hlater => ?_⟩
      exact hafter later (List.mem_append_left _ hlater)
  · rintro (rfl | ⟨htop, before, after, rfl, hafter⟩)
    · exact ⟨layers, [], rfl, by simp⟩
    · refine ⟨before, after ++ [top], by simp, fun later hlater => ?_⟩
      obtain hlater | hlater := List.mem_append.mp hlater
      · exact hafter later hlater
      · rwa [List.mem_singleton.mp hlater]

theorem mergeLayers_append_singleton (layers : List Value) (layer : Value) :
    mergeLayers (layers ++ [layer]) =
      if layer.tree = .null then mergeLayers layers else (mergeLayers layers).overlay layer := by
  rw [mergeLayers, List.foldl_append]
  rfl

theorem stack_append_singleton (layers : List Value) (layer : Value) :
    stack (layers ++ [layer]) =
      if layer.tree = .null then stack layers else stack layers ++ [layer.tree] := by
  rw [stack, List.map_append, List.filter_append]
  split
  · next h => simp [stack, h]
  · next h => simp [stack, h]

/-- What the merged layers hold at a path is said by the last layer that decides the path. The
object without members, which lies below all layers, decides the empty path only. -/
theorem outlineAt?_mergeLayers (layers : List Value) (path : List String) (x : Json) :
    (mergeLayers layers).tree.outlineAt? path = some x ↔
      ∃ layer, Uncovered (stack layers) path layer ∧ layer.outlineAt? path = some x := by
  induction layers using List.reverseRecOn with
  | nil =>
    show (Json.obj []).outlineAt? path = some x ↔ _
    simp [stack, uncovered_singleton_iff]
  | append_singleton layers layer ih =>
    rw [mergeLayers_append_singleton, stack_append_singleton]
    -- a layer that is null changes nothing; any other lies on top of what was merged before
    split
    · exact ih
    · show ((mergeLayers layers).tree.overlay layer.tree).outlineAt? path = some x ↔ _
      rw [Json.outlineAt?_overlay path (mergeLayers layers).normal layer.normal]
      simp only [uncovered_append_singleton_iff]
      split
      · next h => simp [h]
      · next h =>
        have hnone : layer.tree.outlineAt? path = none := by
          rw [Json.outlineAt?, Json.at?_eq_none_of_not_decides h, Option.map_none]
        simp [h, hnone, ih]

end

/-- The last layer wins. At a path the merged layers hold a value that is no object if and only if
some layer holds it there and no later layer decides the path, and they hold an object if and only
if the last layer that decides the path has an object there.

Layers are values here, as they are after reading. Texts that are read as these layers are merged to
the same. -/
theorem mergeLayers_last_wins (layers : List Value) (path : List String) :
    (∀ x : Json, ¬ x.IsObject → ((mergeLayers layers).tree.at? path = some x ↔
      ∃ layer, Uncovered (stack layers) path layer ∧ layer.at? path = some x)) ∧
    ((∃ x : Json, x.IsObject ∧ (mergeLayers layers).tree.at? path = some x) ↔
      ∃ layer, Uncovered (stack layers) path layer ∧
        ∃ x : Json, x.IsObject ∧ layer.at? path = some x) ∧
    ∀ texts, texts.mapM layerOfText = .ok layers →
      mergedOfTexts texts = .ok (mergeLayers layers) := by
  refine ⟨fun x hx => ?_, ?_, fun texts h => ?_⟩
  · simp only [← Json.outlineAt?_eq_some_iff hx]
    exact outlineAt?_mergeLayers layers path x
  · simp only [← Json.outlineAt?_eq_obj_iff]
    exact outlineAt?_mergeLayers layers path (.obj [])
  · rw [mergedOfTexts, h]
    rfl

/-- The second text takes away what the first one has under `a`, and the last one does not bring
it back. The third text is empty. -/
def erasingTexts : List String := ["a: \x7bb: 1\x7d\n", "a: true\n", "", "a:\n  c: null\n"]

def erasingLayers : List Value :=
  [.ofJson (.obj [("a", .obj [("b", .num (.integer 1 (by decide)))])]),
    .ofJson (.obj [("a", .bool true)]), .ofJson .null,
    .ofJson (.obj [("a", .obj [("c", .null)])])]

theorem mergeLayers_last_wins_erased :
    let merged := (mergeLayers erasingLayers).tree
    mergedOfTexts erasingTexts = .ok (mergeLayers erasingLayers) ∧
      (∃ x : Json, x.IsObject ∧ merged.at? ["a"] = some x) ∧
      merged.at? ["a", "c"] = some .null ∧
      ∀ x : Json, ¬ x.IsObject → merged.at? ["a", "b"] ≠ some x := by
  intro merged
  have hstack : stack erasingLayers =
      (([.obj []] ++ [.obj [("a", .obj [("b", .num (.integer 1 (by decide)))])]]) ++
        [.obj [("a", .bool true)]]) ++ [.obj [("a", .obj [("c", .null)])]] := by
    decide +kernel
  have hlast (path : List String) :
      Uncovered (stack erasingLayers) path (.obj [("a", .obj [("c", .null)])]) := by
    rw [hstack, uncovered_append_singleton_iff]
    exact .inl rfl
  refine ⟨(mergeLayers_last_wins erasingLayers []).2.2 _ (by decide +kernel),
    (mergeLayers_last_wins _ _).2.1.mpr ⟨_, hlast _, .obj [("c", .null)], trivial, by decide⟩,
    ((mergeLayers_last_wins _ _).1 .null id).mpr ⟨_, hlast _, by decide⟩, fun x hx h => ?_⟩
  obtain ⟨layer, hlayer, hat⟩ := ((mergeLayers_last_wins _ _).1 x hx).mp h
  rw [hstack, uncovered_append_singleton_iff, uncovered_append_singleton_iff] at hlayer
  -- the top layer and the one that hides the object; below them the path is cut off
  obtain rfl | ⟨-, rfl | ⟨hcut, -⟩⟩ := hlayer
  · cases hat
  · cases hat
  · exact hcut (by decide)

end Settings

end Prospectus
