import Prospectus.Json.Printer
import Prospectus.Record.Basic

/-!
# When two rules are the same

An equivalence of rules gives every value a key; values with one key count as the same rules.
-/

namespace Prospectus

/-- A way to tell rules apart. It is given by keys and not by a relation, so that it is an
equivalence without further proof and can be decided for any number of values with one pass. -/
structure RulesEquivalence where
  key : Json.Value → String

namespace RulesEquivalence

/-- Two values are the same rules. -/
def Same (e : RulesEquivalence) (a b : Json.Value) : Prop := e.key a = e.key b

instance (e : RulesEquivalence) (a b : Json.Value) : Decidable (e.Same a b) :=
  inferInstanceAs (Decidable (_ = _))

/-- The text of a tree on one line, the members of each object by name. -/
def canonicalText (j : Json) : String := j.normalize.compact

/-- Rules are the same if they are the same JSON value. Neither the order of members nor the layout
of the text that they were read from makes a difference. -/
def canonical : RulesEquivalence := ⟨fun v => canonicalText v.tree⟩

/-- Texts are the same rules if they differ at most in the case of ASCII letters; other values if
they are the same JSON value. -/
def ignoreAsciiCase : RulesEquivalence where
  key v := match v.tree with
    | .str s => s.map Char.toLower
    | j => canonicalText j

/-- Whether the values of a list do not all have one key. -/
def differ (e : RulesEquivalence) (vs : List Json.Value) : Bool :=
  match vs with
  | [] => false
  | v :: rest => rest.any fun w => !decide (e.Same v w)

/-- It is enough to compare all values with the first one. -/
theorem differ_iff {e : RulesEquivalence} {vs : List Json.Value} :
    e.differ vs = true ↔ ∃ v ∈ vs, ∃ w ∈ vs, ¬ e.Same v w := by
  cases vs with
  | nil => simp [differ]
  | cons u vs =>
    simp only [differ, List.any_eq_true, Bool.not_eq_true', decide_eq_false_iff_not]
    constructor
    · rintro ⟨w, hw, huw⟩
      exact ⟨u, List.mem_cons_self, w, List.mem_cons_of_mem _ hw, huw⟩
    · rintro ⟨v, hv, w, hw, hvw⟩
      by_cases huv : e.Same u v
      · -- then `u` and `w` are not the same, so `w` is not the first value either
        have huw : ¬ e.Same u w := fun huw => hvw (huv.symm.trans huw)
        exact ⟨w, (List.mem_cons.1 hw).resolve_left fun heq => huw (congrArg e.key heq.symm), huw⟩
      · exact ⟨v, (List.mem_cons.1 hv).resolve_left fun heq => huv (congrArg e.key heq.symm), huv⟩

end RulesEquivalence

end Prospectus
