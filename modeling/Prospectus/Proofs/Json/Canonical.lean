import Mathlib.Data.List.Forall2
import Prospectus.Proofs.Json.Printed
import Prospectus.Json.Normal
import Prospectus.Reconcile.Rules
import Prospectus.Settings.Reading
import Prospectus.Text.Pieces

/-! # Canonical text

The canonical text of a tree lists the members of each object by name and stands on one line. It
is the text that an encoder writes which sorts the members of an object and joins what it wrote
(`write_compact_of_normal`), and it determines the value that the tree says: two trees have one
canonical text exactly if they say the same value (`Json.Same`).

Two things are told by it. Rules that were captured in two years count as the same if their texts
agree, and settings are fingerprinted by theirs. In both cases a difference that the text does not
show would go unnoticed, and one that only the text shows would be reported for nothing; neither can
happen, because the text is a normal form:

    tree ──normalize──▶ normal tree ──write compact──▶ text

The first arrow identifies trees that say the same (`normalize_eq_iff`), and the second one is
injective (`compact_injective`). -/

namespace Prospectus

namespace Json

/-! ### Trees that say the same value

The relation is defined without any normal form: it follows the shape of the trees, and for objects
it asks what is found under each name. That it comes to equality of normal forms is proved by
induction on the first tree, with the second one arbitrary. -/

/-- Two trees say the same value: arrays item by item, objects name by name whatever the order of
their members, numbers by their written form, all else as it stands. Of a name that an object
repeats its last member counts.

Numbers are compared as they are written: `1` and `1.0` are different values, and two doubles have
one text only if they are one double. -/
inductive Same : Json → Json → Prop
  | null : Same .null .null
  | bool (b : Bool) : Same (.bool b) (.bool b)
  | num {m n : Number} (h : m.text = n.text) : Same (.num m) (.num n)
  | str (s : String) : Same (.str s) (.str s)
  | arr {xs ys : List Json} (h : List.Forall₂ Same xs ys) : Same (.arr xs) (.arr ys)
  | obj {ms ns : List (String × Json)}
      (h : ∀ k, Option.Rel Same ((Dict.ofList ms).find? k) ((Dict.ofList ns).find? k)) :
      Same (.obj ms) (.obj ns)

theorem normalizeMembers_eq_map (ms : List (String × Json)) :
    normalizeMembers ms = ms.map fun m => (m.1, m.2.normalize) := by
  induction ms with
  | nil => rfl
  | cons m ms ih => rw [normalizeMembers, ih, List.map_cons]

theorem find?_ofList_normalizeMembers (ms : List (String × Json)) (k : String) :
    (Dict.ofList (normalizeMembers ms)).find? k = ((Dict.ofList ms).find? k).map normalize := by
  simp only [Dict.ofList, Dict.find?_insertAll, Dict.find?_empty, Option.or_none,
    normalizeMembers_eq_map, ← List.map_reverse]
  generalize ms.reverse = ms
  induction ms with
  | nil => rfl
  | cons m ms ih =>
    simp only [List.map_cons, Dict.findIn?, ih]
    split <;> rfl

theorem normalize_obj_eq_iff {ms ns : List (String × Json)} :
    (obj ms).normalize = (obj ns).normalize ↔
      ∀ k, ((Dict.ofList ms).find? k).map normalize = ((Dict.ofList ns).find? k).map normalize := by
  simp only [normalize, obj.injEq, ← find?_ofList_normalizeMembers]
  constructor
  · intro h k
    rw [Dict.find?, Dict.find?, h]
  · intro h
    rw [Dict.ext_find? h]

theorem mem_of_find?_ofList {ms : List (String × Json)} {k : String} {x : Json}
    (h : (Dict.ofList ms).find? k = some x) : (k, x) ∈ ms :=
  mem_ofList (Dict.mem_entries_iff.mpr h)

/-- Look-ups agree if what they find does. Both find something or neither does. -/
theorem map_normalize_eq_iff {found found' : Option Json}
    (h : ∀ x, found = some x → ∀ y, x.normalize = y.normalize ↔ x.Same y) :
    found.map normalize = found'.map normalize ↔ Option.Rel Same found found' := by
  cases found with
  | none =>
    cases found' with
    | none => exact iff_of_true rfl .none
    | some y => exact iff_of_false (by simp) nofun
  | some x =>
    cases found' with
    | none => exact iff_of_false (by simp) nofun
    | some y =>
      rw [Option.map_some, Option.map_some, Option.some_inj, h x rfl]
      exact ⟨.some, fun | .some hsame => hsame⟩

mutual

theorem normalize_eq_iff : (a : Json) → ∀ b, a.normalize = b.normalize ↔ a.Same b
  | .null, b => by
    refine ⟨fun h => ?_, fun | .null => rfl⟩
    cases b <;> cases h
    exact .null
  | .bool a, b => by
    refine ⟨fun h => ?_, fun | .bool _ => rfl⟩
    cases b <;> cases h
    exact .bool a
  | .num n, b => by
    refine ⟨fun h => ?_, fun | .num h => congrArg num (Number.text_injective h)⟩
    cases b <;> cases h
    exact .num rfl
  | .str s, b => by
    refine ⟨fun h => ?_, fun | .str _ => rfl⟩
    cases b <;> cases h
    exact .str s
  | .arr xs, b => by
    -- equal normal forms of arrays are those of their items, one by one
    constructor
    · intro h
      cases b with
      | arr ys => exact .arr ((normalizeItems_eq_iff xs ys).mp (arr.inj h))
      | _ => cases h
    · rintro ⟨⟩
      next ys h => exact congrArg arr ((normalizeItems_eq_iff xs ys).mpr h)
  | .obj ms, b => by
    -- normal forms of objects are told apart by what is found under each name
    have hfound : ∀ k x, (Dict.ofList ms).find? k = some x →
        ∀ y, x.normalize = y.normalize ↔ x.Same y :=
      fun k x hx => normalizeMember_eq_iff ms (k, x) (mem_of_find?_ofList hx)
    constructor
    · intro h
      cases b with
      | obj ns =>
        refine .obj fun k => ?_
        exact (map_normalize_eq_iff (hfound k)).mp (normalize_obj_eq_iff.mp h k)
      | _ => cases h
    · rintro ⟨⟩
      next ns h =>
      refine normalize_obj_eq_iff.mpr fun k => ?_
      exact (map_normalize_eq_iff (hfound k)).mpr (h k)

theorem normalizeItems_eq_iff : (xs ys : List Json) →
    (normalizeItems xs = normalizeItems ys ↔ List.Forall₂ Same xs ys)
  | [], [] => iff_of_true rfl .nil
  | [], _ :: _ => iff_of_false nofun nofun
  | _ :: _, [] => iff_of_false nofun nofun
  | x :: xs, y :: ys => by
    rw [normalizeItems, normalizeItems, List.cons.injEq, List.forall₂_cons,
      normalize_eq_iff x y, normalizeItems_eq_iff xs ys]

theorem normalizeMember_eq_iff : (ms : List (String × Json)) → ∀ m ∈ ms, ∀ b,
    m.2.normalize = b.normalize ↔ m.2.Same b
  | (_, x) :: ms, m, h, b => by
    rcases List.mem_cons.mp h with rfl | h
    · exact normalize_eq_iff x b
    · exact normalizeMember_eq_iff ms m h b

end

theorem Value.eq_iff_same {v w : Value} : v = w ↔ v.tree.Same w.tree := by
  obtain ⟨a, ha⟩ := v
  obtain ⟨b, hb⟩ := w
  rw [← normalize_eq_iff, normalize_of_normal ha, normalize_of_normal hb, Value.mk.injEq]

/-! ### An encoder that sorts and joins

A second way to write the text, closer to what encoders do: write the members of an object, sort
what was written by name and put commas between. On a normal tree there is nothing to sort, so both
write the same. -/

mutual

/-- The characters of a tree on one line, the members of each object sorted by name. -/
def sortedChars : Json → List Char
  | .null => write .compact 0 .null
  | .bool b => write .compact 0 (.bool b)
  | .num n => write .compact 0 (.num n)
  | .str s => write .compact 0 (.str s)
  | .arr items => '[' :: (Text.joinWith [','] (sortedItems items) ++ [']'])
  | .obj members =>
    let sorted := (sortedMembers members).mergeSort fun a b => (compare a.1 b.1).isLE
    '{' :: (Text.joinWith [','] (sorted.map fun m => quote m.1 ++ ':' :: m.2) ++ ['}'])

def sortedItems : List Json → List (List Char)
  | [] => []
  | x :: xs => sortedChars x :: sortedItems xs

/-- The names of the members with the characters of their values. -/
def sortedMembers : List (String × Json) → List (String × List Char)
  | [] => []
  | (k, x) :: ms => (k, sortedChars x) :: sortedMembers ms

end

theorem joinWith_cons_eq_flatMap (sep p : List Char) (ps : List (List Char)) :
    Text.joinWith sep (p :: ps) = p ++ ps.flatMap fun q => sep ++ q := by
  induction ps generalizing p with
  | nil => exact (List.append_nil p).symm
  | cons q ps ih =>
    rw [Text.joinWith_cons (List.cons_ne_nil q ps), ih, List.flatMap_cons]
    simp only [List.append_assoc]

/-- The members of a normal tree are sorted as they stand. -/
theorem mergeSort_sortedMembers {ms : List (String × Json)}
    (h : ms.Pairwise fun a b => compare a.1 b.1 = .lt) :
    (sortedMembers ms).mergeSort (fun a b => (compare a.1 b.1).isLE) = sortedMembers ms := by
  have hmap : sortedMembers ms = ms.map fun m => (m.1, sortedChars m.2) := by
    induction ms with
    | nil => rfl
    | cons m ms ih => rw [sortedMembers, ih h.of_cons, List.map_cons]
  apply List.mergeSort_of_pairwise
  rw [hmap, List.pairwise_map]
  exact h.imp fun hlt => by rw [hlt]; rfl

mutual

theorem write_compact_of_normal (level : Nat) :
    (j : Json) → j.Normal → write .compact level j = sortedChars j
  | .null, _ | .bool true, _ | .bool false, _ | .num _, _ | .str _, _ => rfl
  | .arr [], _ => rfl
  | .arr (x :: xs), h => by
    rw [sortedChars, sortedItems, joinWith_cons_eq_flatMap,
      ← write_compact_of_normal (level + 1) x h.1, ← writeItems_compact_of_normal level xs h.2,
      write]
    simp [Layout.lineBreak]
  | .obj [], h => by
    rw [sortedChars, mergeSort_sortedMembers h.1]
    rfl
  | .obj ((k, x) :: ms), h => by
    -- the members of a normal object are in order already
    rw [sortedChars, mergeSort_sortedMembers h.1, sortedMembers, List.map_cons,
      joinWith_cons_eq_flatMap, ← write_compact_of_normal (level + 1) x h.2.1,
      ← writeMembers_compact_of_normal level ms h.2.2, write]
    simp [Layout.lineBreak, Layout.colon]

theorem writeItems_compact_of_normal (level : Nat) :
    (xs : List Json) → NormalItems xs →
      writeItems .compact level xs = (sortedItems xs).flatMap fun q => [','] ++ q
  | [], _ => rfl
  | x :: xs, h => by
    rw [sortedItems, List.flatMap_cons, ← write_compact_of_normal (level + 1) x h.1,
      ← writeItems_compact_of_normal level xs h.2]
    rfl

theorem writeMembers_compact_of_normal (level : Nat) :
    (ms : List (String × Json)) → NormalMembers ms →
      writeMembers .compact level ms =
        ((sortedMembers ms).map fun m => quote m.1 ++ ':' :: m.2).flatMap fun q => [','] ++ q
  | [], _ => rfl
  | (k, x) :: ms, h => by
    rw [sortedMembers, List.map_cons, List.flatMap_cons,
      ← write_compact_of_normal (level + 1) x h.1,
      ← writeMembers_compact_of_normal level ms h.2, writeMembers]
    simp [Layout.lineBreak, Layout.colon]

end

/-! ### Canonical text

With normal forms for values and an injective printer for trees, equality of texts is equality of
values. -/

/-- The text by which rules are compared is the one that settings are fingerprinted by, and the one
that sorting the members of every object gives. Two trees have one such text exactly if they say
the same value, whatever the order of their members; so rules are the same, and merged settings
have one text, exactly if they are equal. -/
theorem canonicalText_determines_value :
    (∀ v : Value, Settings.canonicalText v = RulesEquivalence.canonical.key v ∧
      RulesEquivalence.canonical.key v = String.ofList (sortedChars v.tree)) ∧
    (∀ a b : Json,
      RulesEquivalence.canonicalText a = RulesEquivalence.canonicalText b ↔ a.Same b) ∧
    (∀ v w : Value, (RulesEquivalence.canonical.Same v w ↔ v.tree.Same w.tree) ∧
      (RulesEquivalence.canonical.Same v w ↔ v = w) ∧
      (Settings.canonicalText v = Settings.canonicalText w ↔ v = w)) := by
  -- both encoders write the normal form, which a value is already
  have hkey : ∀ v : Value, RulesEquivalence.canonical.key v = Settings.canonicalText v := by
    intro v
    show v.tree.normalize.compact = v.tree.compact
    rw [normalize_of_normal v.normal]
  have htext : ∀ a b : Json,
      RulesEquivalence.canonicalText a = RulesEquivalence.canonicalText b ↔ a.Same b := by
    intro a b
    rw [← normalize_eq_iff]
    exact ⟨compact_injective, congrArg compact⟩
  have hsame : ∀ v w : Value, RulesEquivalence.canonical.Same v w ↔ v.tree.Same w.tree :=
    fun v w => htext v.tree w.tree
  refine ⟨fun v => ⟨(hkey v).symm, ?_⟩, htext, fun v w => ⟨hsame v w, ?_, ?_⟩⟩
  · rw [hkey, Settings.canonicalText, compact, write_compact_of_normal 0 v.tree v.normal]
  · rw [hsame, Value.eq_iff_same]
  · rw [← hkey, ← hkey, Value.eq_iff_same]
    exact hsame v w

end Json

end Prospectus
