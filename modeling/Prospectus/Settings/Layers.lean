import Prospectus.Json.Normal

/-!
# Layers of settings

Settings are given in layers. A later layer is laid over the earlier ones: objects are merged
member by member, and anything else is replaced as a whole, lists included. `overlay_obj` and
`overlay_of_not_obj` say so.
-/

namespace Prospectus.Json

mutual

/-- One tree laid over another. -/
def overlay : (below above : Json) → Json
  | .obj below, .obj above => .obj (overlayMembers below above)
  | _, above => above

/-- Members laid over others, one after the other. A new name is laid over null. The result is
sorted by name if the lower members are. -/
def overlayMembers (below : List (String × Json)) : List (String × Json) → List (String × Json)
  | [] => below
  | (k, x) :: above =>
    overlayMembers (Dict.alterEntries k (fun y => overlay (y.getD .null) x) below) above

end

theorem overlay_obj (below above : List (String × Json)) :
    overlay (.obj below) (.obj above) = .obj (overlayMembers below above) := by
  rw [overlay]

/-- A tree that is not an object hides everything below it. -/
theorem overlay_of_not_obj {below above : Json} (h : ∀ ms, above ≠ .obj ms) :
    overlay below above = above := by
  cases above with
  | obj ms => exact absurd rfl (h ms)
  | _ => cases below <;> simp [overlay]

/-! ### Layers keep trees normal -/

mutual

theorem normal_overlay : {below above : Json} → below.Normal → above.Normal →
    (overlay below above).Normal
  | below, .null, _, h | below, .bool _, _, h | below, .num _, _, h | below, .str _, _, h
  | below, .arr _, _, h => by
    rw [overlay_of_not_obj (by simp)]
    exact h
  | .null, .obj _, _, h | .bool _, .obj _, _, h | .num _, .obj _, _, h | .str _, .obj _, _, h
  | .arr _, .obj _, _, h => by
    rw [overlay] <;> simp_all
  | .obj below, .obj above, hb, ha => by
    rw [overlay_obj, Normal]
    exact normal_overlayMembers hb.1 hb.2 ha.2

theorem normal_overlayMembers : {below above : List (String × Json)} →
    (below.Pairwise fun a b => compare a.1 b.1 = .lt) → NormalMembers below →
    NormalMembers above →
    ((overlayMembers below above).Pairwise fun a b => compare a.1 b.1 = .lt) ∧
      NormalMembers (overlayMembers below above)
  | below, [], hp, hb, _ => by
    rw [overlayMembers]
    exact ⟨hp, hb⟩
  | below, (k, x) :: above, hp, hb, ha => by
    rw [overlayMembers]
    refine normal_overlayMembers (Dict.ascending_alterEntries k _ hp) ?_ ha.2
    rw [normalMembers_iff] at hb ⊢
    intro m hm
    rcases Dict.mem_alterEntries hm with rfl | hm | ⟨y, hy, -, hm⟩
    · exact normal_overlay (by simp [Normal]) ha.1
    · exact hb m hm
    · rw [hm]
      exact normal_overlay (hb _ hy) ha.1

end

namespace Value

def overlay (below above : Value) : Value :=
  ⟨below.tree.overlay above.tree, normal_overlay below.normal above.normal⟩

/-- The object without members. -/
def noMembers : Value := ⟨.obj [], by simp [Normal, NormalMembers]⟩

end Value

end Prospectus.Json

namespace Prospectus.Settings

open Json (Value)

/-- Layers laid over each other, the first one at the bottom. A layer that is null says nothing,
and below all layers lies an object without members. -/
def mergeLayers (layers : List Value) : Value :=
  layers.foldl (fun below layer => if layer.tree = .null then below else below.overlay layer)
    .noMembers

end Prospectus.Settings
