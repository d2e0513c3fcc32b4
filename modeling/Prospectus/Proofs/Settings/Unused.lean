import Prospectus.Proofs.Json.Decoders
import Prospectus.Settings.Reading
import Prospectus.Settings.Unused

/-!
# Unused settings are not read

The leaves that are reported as unused are told by their pointers alone, and the settings are read
by going through the tree. `Value.replaceLeaves` puts other leaves in their places. Where settings
are written by name, the settings stay as they are (`Settings.ofValue_replaceLeaves`): a group reads
the members that have a pointer among `readPointers`, and passes over all others (`ReadsNames`).
A group that is written as an array is read by position, under pointers that are not in the list
(`Settings.not_unread_listed`).
-/

namespace Prospectus.Settings

open Json (Decoder DecodeError Source Value)

/-! ### Other leaves

Replacing goes through a tree with the pointer that leads to each place, and puts a new leaf where
the given function has one for the pointer. Arrays and objects stay, with the same number of items
and the same names. -/

/-- A tree that is no array and no object. -/
inductive Leaf
  | null
  | bool (b : Bool)
  | num (n : Number)
  | str (s : String)
  deriving DecidableEq

def Leaf.tree : Leaf → Json
  | .null => .null
  | .bool b => .bool b
  | .num n => .num n
  | .str s => .str s

section

variable (new : String → Option Leaf)

/-- What stands at a leaf to which `lead` leads: the new leaf if there is one. -/
def leafAt (lead : List Char) (old : Json) : Json :=
  ((new (pointerText lead)).map Leaf.tree).getD old

mutual

/-- A tree to which `lead` leads, with other leaves at some pointers. -/
def replaceFrom (lead : List Char) : Json → Json
  | .arr items => .arr (replaceItems lead 0 items)
  | .obj members => .obj (replaceMembers lead members)
  | .null => leafAt new lead .null
  | .bool b => leafAt new lead (.bool b)
  | .num n => leafAt new lead (.num n)
  | .str s => leafAt new lead (.str s)

def replaceItems (lead : List Char) (i : Nat) : List Json → List Json
  | [] => []
  | x :: xs => replaceFrom (lead ++ '/' :: indexText i) x :: replaceItems lead (i + 1) xs

def replaceMembers (lead : List Char) : List (String × Json) → List (String × Json)
  | [] => []
  | (k, x) :: ms => (k, replaceFrom (lead ++ '/' :: escapeName k) x) :: replaceMembers lead ms

end

end

variable {new : String → Option Leaf} {lead : List Char}

theorem replaceMembers_eq_map (members : List (String × Json)) :
    replaceMembers new lead members =
      members.map fun m => (m.1, replaceFrom new (lead ++ '/' :: escapeName m.1) m.2) := by
  induction members with
  | nil => rfl
  | cons m ms ih => rw [replaceMembers, ih, List.map_cons]

theorem normal_leafAt {old : Json} (h : old.Normal) : (leafAt new lead old).Normal := by
  unfold leafAt
  cases new (pointerText lead) with
  | none => exact h
  | some leaf => cases leaf <;> simp [Leaf.tree, Json.Normal]

mutual

theorem normal_replaceFrom : {lead : List Char} → {j : Json} → j.Normal →
    (replaceFrom new lead j).Normal
  | _, .null, h | _, .bool _, h | _, .num _, h | _, .str _, h => by
    rw [replaceFrom]
    exact normal_leafAt h
  | lead, .arr items, h => by
    rw [replaceFrom, Json.Normal]
    exact normalItems_replaceItems h
  | lead, .obj members, h => by
    rw [replaceFrom, Json.Normal]
    refine ⟨?_, normalMembers_replaceMembers h.2⟩
    -- the names stay
    rw [replaceMembers_eq_map, List.pairwise_map]
    exact h.1

theorem normalItems_replaceItems : {lead : List Char} → {i : Nat} → {items : List Json} →
    Json.NormalItems items → Json.NormalItems (replaceItems new lead i items)
  | _, _, [], _ => by simp [replaceItems, Json.NormalItems]
  | _, _, _ :: _, h => ⟨normal_replaceFrom h.1, normalItems_replaceItems h.2⟩

theorem normalMembers_replaceMembers : {lead : List Char} → {members : List (String × Json)} →
    Json.NormalMembers members → Json.NormalMembers (replaceMembers new lead members)
  | _, [], _ => by simp [replaceMembers, Json.NormalMembers]
  | _, (_, _) :: _, h => ⟨normal_replaceFrom h.1, normalMembers_replaceMembers h.2⟩

end

/-- A value with other leaves at some pointers. -/
def replaceLeaves (new : String → Option Leaf) (v : Value) : Value :=
  ⟨replaceFrom new [] v.tree, normal_replaceFrom v.normal⟩

/-! ### What stays

If nothing is replaced at a pointer and beyond it, the tree there is as it was. -/

/-- Nothing is replaced where `lead` leads, nor anywhere beyond. -/
def Keeps (new : String → Option Leaf) (lead : List Char) : Prop :=
  new (pointerText lead) = none ∧ ∀ rest, new (pointerText (lead ++ '/' :: rest)) = none

theorem Keeps.beyond (h : Keeps new lead) (name : List Char) : Keeps new (lead ++ '/' :: name) := by
  refine ⟨h.2 name, fun rest => ?_⟩
  rw [List.append_assoc, List.cons_append]
  exact h.2 (name ++ '/' :: rest)

theorem Keeps.leafAt (h : Keeps new lead) (old : Json) : leafAt new lead old = old := by
  rw [Settings.leafAt, h.1]
  rfl

mutual

theorem replaceFrom_eq_self : {lead : List Char} → Keeps new lead → (j : Json) →
    replaceFrom new lead j = j
  | _, h, .null | _, h, .bool _ | _, h, .num _ | _, h, .str _ => by rw [replaceFrom, h.leafAt]
  | _, h, .arr items => by rw [replaceFrom, replaceItems_eq_self h]
  | _, h, .obj members => by rw [replaceFrom, replaceMembers_eq_self h]

theorem replaceItems_eq_self : {lead : List Char} → {i : Nat} → Keeps new lead →
    (items : List Json) → replaceItems new lead i items = items
  | _, _, _, [] => rfl
  | _, _, h, x :: xs => by
    rw [replaceItems, replaceFrom_eq_self (h.beyond _) x, replaceItems_eq_self h xs]

theorem replaceMembers_eq_self : {lead : List Char} → Keeps new lead →
    (members : List (String × Json)) → replaceMembers new lead members = members
  | _, _, [] => rfl
  | _, h, (k, x) :: ms => by
    rw [replaceMembers, replaceFrom_eq_self (h.beyond _) x, replaceMembers_eq_self h ms]

end

/-- What a pointer covers is kept if it is not replaced. Covering is a relation of texts, and so is
leading on from a place. -/
theorem keeps_of_covers {upper : String} (h : ∀ p, covers upper p = true → new p = none) :
    Keeps new upper.toList := by
  have hcovers : ∀ rest, covers upper (pointerText (upper.toList ++ '/' :: rest)) = true := by
    intro rest
    have hne : (upper.toList ++ '/' :: rest).isEmpty = false := by simp
    rw [pointerText, hne, covers_iff]
    exact .inr (.inr ⟨rest, by simp⟩)
  refine ⟨h _ ?_, fun rest => h _ (hcovers rest)⟩
  rw [pointerText, covers_iff]
  split
  · next hempty => exact .inr (.inr ⟨[], by simp [List.isEmpty_iff.mp hempty]⟩)
  · exact .inr (.inl (by simp))

/-! ### What is reported

Being reported is being a leaf and not being read; sorting and dropping repeats do not matter for
that. -/

theorem mem_eraseReps {l : List String} {p : String} : p ∈ l.eraseReps ↔ p ∈ l := by
  have hloop : ∀ (l : List String) (a : String) (kept : List String),
      p ∈ List.eraseRepsBy.loop (· == ·) a l kept ↔ p ∈ kept ∨ p ∈ a :: l := by
    -- the loop compares each item with the last one that was kept
    intro l
    induction l with
    | nil =>
      intro a kept
      simp [List.eraseRepsBy.loop, or_comm]
    | cons b l ih =>
      intro a kept
      rw [List.eraseRepsBy.loop]
      split
      · next heq =>
        obtain rfl : a = b := by simpa using heq
        simp [ih]
      · simp only [ih, List.mem_cons]
        tauto
  cases l with
  | nil => rfl
  | cons a l =>
    rw [List.eraseReps, List.eraseRepsBy, hloop]
    simp

/-- The pointers that are reported are those of the leaves that no setting reads. -/
theorem mem_unusedPointers_iff {v : Value} {p : String} :
    p ∈ unusedPointers v ↔ p ∈ leafPointers v ∧ isRead p = false := by
  rw [unusedPointers, mem_eraseReps, List.mem_mergeSort, List.mem_filter, Bool.not_eq_true']

theorem reportUnused_eq_ok {policy : UnusedPolicy} {v : Value} {pointers : List String}
    (h : reportUnused policy v = .ok pointers) : unusedPointers v = pointers := by
  simp only [reportUnused] at h
  split at h
  · cases h
  · exact Except.ok.inj h

/-! ### Decoders that read by name

The decoder of a group reads members one by one. What it does with a member is up to its name, and
under a name that it does not know it does nothing. So members may hold other leaves as long as
those under its names are kept; and these have pointers in the registry, so they are. The condition
on arrays is needed because the same decoder reads an array by position. -/

/-- A decoder that reads an object member by member and passes over all but some names. Leaves it
refuses, and of arrays nothing is said: what is read of these is read by position. -/
structure ReadsNames {σ : Type} (names : List String) (d : Decoder σ) (start : σ)
    (step : σ → String → Source → Except DecodeError σ) : Prop where
  members : ∀ ms ending, d (.obj ms ending) = Source.foldMembers start step (.obj ms ending)
  passes : ∀ name, name ∉ names → ∀ (state : σ) (j : Json),
    step state name (.ofJson j) = .ok state
  leaf : ∀ (leaf : Leaf) (x : σ), d (.ofJson leaf.tree) ≠ .ok x

section

variable {σ : Type} {names : List String} {d : Decoder σ} {start x : σ}
  {step : σ → String → Source → Except DecodeError σ} {j : Json}

/-- What is read of members stays if it stays for each of the names that are read. -/
theorem ReadsNames.replaceFrom (h : ReadsNames names d start step)
    (harray : ∀ items, j = .arr items → Keeps new lead)
    (hnames : ∀ ms, j = .obj ms → ∀ m ∈ ms, m.1 ∈ names → ∀ state next : σ,
      step state m.1 (.ofJson m.2) = .ok next →
      step state m.1 (.ofJson (replaceFrom new (lead ++ '/' :: escapeName m.1) m.2)) = .ok next)
    (hx : d (.ofJson j) = .ok x) : d (.ofJson (Settings.replaceFrom new lead j)) = .ok x := by
  -- only objects are read; anything else that is no array is refused
  cases j with
  | null => exact absurd hx (h.leaf .null x)
  | bool b => exact absurd hx (h.leaf (.bool b) x)
  | num n => exact absurd hx (h.leaf (.num n) x)
  | str s => exact absurd hx (h.leaf (.str s) x)
  | arr items => rwa [replaceFrom_eq_self (harray items rfl)]
  | obj ms =>
    have hmembers : ∀ ms, d (.ofJson (.obj ms)) =
        ms.foldlM (fun state m => step state m.1 (.ofJson m.2)) start := by
      intro ms
      rw [← Source.foldMembers_ofJson, Source.ofJson, h.members]
    rw [hmembers] at hx
    rw [Settings.replaceFrom, hmembers, replaceMembers_eq_map, List.foldlM_map]
    have hnames := hnames ms rfl
    refine foldlM_eq_ok_of_step (fun m hm state next hnext => ?_) hx
    by_cases hname : m.1 ∈ names
    · exact hnames m hm hname state next hnext
    · -- passed over, whatever it holds
      rw [h.passes m.1 hname] at hnext ⊢
      exact hnext

/-- A group reads nothing that is replaced if all of its names are in the list. -/
theorem ReadsNames.replace_group (h : ReadsNames names d start step) {group : String}
    (hnew : ∀ p, isRead p = true → new p = none)
    (hread : ∀ name ∈ names, pointerText ('/' :: escapeName group ++ '/' :: escapeName name) ∈
      readPointers)
    (harray : ∀ items, j = .arr items → Keeps new ('/' :: escapeName group))
    (hx : d (.ofJson j) = .ok x) :
    d (.ofJson (Settings.replaceFrom new ('/' :: escapeName group) j)) = .ok x := by
  refine h.replaceFrom harray (fun ms _ m _ hm state next hnext => ?_) hx
  have hkeeps : Keeps new ('/' :: escapeName group ++ '/' :: escapeName m.1) := by
    have hcovered := keeps_of_covers fun p hp => hnew p (List.any_eq_true.mpr ⟨_, hread _ hm, hp⟩)
    simpa [pointerText] using hcovered
  rwa [replaceFrom_eq_self hkeeps]

end

theorem ignore_ofJson (j : Json) : (Source.ofJson j).ignore = .ok () := by
  rw [Source.ignore, ← Json.within_eq_ofJson (Nat.le_refl j.height), Json.skip_within]
  rfl

theorem readsNames_catalog : ReadsNames ["course", "school", "output_file"]
    CatalogSettings.decode {} CatalogSettings.read where
  members _ _ := rfl
  passes name hname state j := by
    simp only [List.mem_cons, List.not_mem_nil, or_false, not_or] at hname
    simp only [CatalogSettings.read, hname, ↓reduceIte, ignore_ofJson]
    rfl
  leaf leaf x h := by cases leaf <;> cases h

theorem readsNames_snapshots : ReadsNames ["dir", "prefix"]
    SnapshotSettings.decode {} SnapshotSettings.read where
  members _ _ := rfl
  passes name hname state j := by
    simp only [List.mem_cons, List.not_mem_nil, or_false, not_or] at hname
    simp only [SnapshotSettings.read, hname, ↓reduceIte, ignore_ofJson]
    rfl
  leaf leaf x h := by cases leaf <;> cases h

theorem readsNames_availability : ReadsNames ["cycle_length"]
    AvailabilitySettings.decode {} AvailabilitySettings.read where
  members _ _ := rfl
  passes name hname state j := by
    simp only [List.mem_cons, List.not_mem_nil, or_false] at hname
    simp only [AvailabilitySettings.read, hname, ↓reduceIte, ignore_ofJson]
    rfl
  leaf leaf x h := by cases leaf <;> cases h

theorem readsNames_scrub : ReadsNames ["personal_literals", "personal_patterns"]
    Scrub.Rules.decode {} Scrub.Rules.read where
  members _ _ := rfl
  passes name hname state j := by
    simp only [List.mem_cons, List.not_mem_nil, or_false, not_or] at hname
    simp only [Scrub.Rules.read, hname, ↓reduceIte, ignore_ofJson]
    rfl
  leaf leaf x h := by cases leaf <;> cases h

def groupNames : List String := ["availability", "catalog", "scrub", "snapshots"]

theorem readsNames_settings : ReadsNames groupNames Settings.decode {} Settings.read where
  members _ _ := rfl
  passes name hname state j := by
    simp only [groupNames, List.mem_cons, List.not_mem_nil, or_false, not_or] at hname
    simp only [Settings.read, hname, ↓reduceIte, ignore_ofJson]
    rfl
  leaf leaf x h := by cases leaf <;> cases h

/-! ### Settings with other leaves

The settings are a group of groups, and both levels read by name. -/

/-- The pointers of the arrays that stand for the settings or for a group of them. -/
def listedPointers (v : Value) : List String :=
  match v.tree with
  | .arr _ => [""]
  | .obj members => members.filterMap fun m =>
    match m.2 with
    | .arr _ => if m.1 ∈ groupNames then some (pointerText ('/' :: escapeName m.1)) else none
    | _ => none
  | .null | .bool _ | .num _ | .str _ => []

/-- Whether a pointer leads into an array that stands for the settings or for a group of them. The
items of such an array are read by position, whatever the registry says about their pointers. -/
def isListed (v : Value) (pointer : String) : Bool :=
  (listedPointers v).any fun upper => covers upper pointer

/-- What is replaced in a group that is written by name, each group with its own names. -/
theorem read_replaceFrom (hnew : ∀ p, isRead p = true → new p = none) {name : String}
    (hname : name ∈ groupNames) {j : Json}
    (harray : ∀ items, j = .arr items → Keeps new ('/' :: escapeName name)) {x y : Settings}
    (h : x.read name (.ofJson j) = .ok y) :
    x.read name (.ofJson (replaceFrom new ('/' :: escapeName name) j)) = .ok y := by
  simp only [groupNames, List.mem_cons, List.not_mem_nil, or_false] at hname
  -- one group after the other; each reads its own names, and those are listed for it
  rcases hname with rfl | rfl | rfl | rfl
  · obtain ⟨group, hgroup, h⟩ := bind_eq_ok_iff.mp h
    refine bind_eq_ok_iff.mpr ⟨group, ?_, h⟩
    exact readsNames_availability.replace_group hnew (by decide) harray hgroup
  · obtain ⟨group, hgroup, h⟩ := bind_eq_ok_iff.mp h
    refine bind_eq_ok_iff.mpr ⟨group, ?_, h⟩
    exact readsNames_catalog.replace_group hnew (by decide) harray hgroup
  · obtain ⟨group, hgroup, h⟩ := bind_eq_ok_iff.mp h
    refine bind_eq_ok_iff.mpr ⟨group, ?_, h⟩
    exact readsNames_scrub.replace_group hnew (by decide) harray hgroup
  · obtain ⟨group, hgroup, h⟩ := bind_eq_ok_iff.mp h
    refine bind_eq_ok_iff.mpr ⟨group, ?_, h⟩
    exact readsNames_snapshots.replace_group hnew (by decide) harray hgroup

/-- Leaves that are reported as unused say nothing: with other leaves in their places the settings
are the same, rules for scrubbing included. The leaves must not be ones that are read by
position. -/
theorem ofValue_replaceLeaves {v : Value} {x : Settings} {policy : UnusedPolicy}
    {pointers : List String} {new : String → Option Leaf} (hx : ofValue v = .ok x)
    (hreport : reportUnused policy v = .ok pointers)
    (hnew : ∀ p, (new p).isSome → p ∈ pointers ∧ isListed v p = false) :
    ofValue (replaceLeaves new v) = .ok x := by
  -- what is replaced was reported as unused, so nothing that is read is among it
  have hunread : ∀ p, isRead p = true → new p = none := by
    intro p hp
    cases hleaf : new p with
    | none => rfl
    | some leaf =>
      have hmem := (hnew p (by rw [hleaf]; rfl)).1
      rw [← reportUnused_eq_ok hreport, mem_unusedPointers_iff, hp] at hmem
      exact absurd hmem.2 (by decide)
  -- and no array that is read by position is among it
  have hkeeps : ∀ upper ∈ listedPointers v, Keeps new upper.toList := by
    intro upper hupper
    refine keeps_of_covers fun p hp => ?_
    cases hleaf : new p with
    | none => rfl
    | some leaf =>
      have hnot := (hnew p (by rw [hleaf]; rfl)).2
      rw [isListed, List.any_eq_true.mpr ⟨upper, hupper, hp⟩] at hnot
      cases hnot
  rw [ofValue, mapError_eq_ok_iff, Json.decodeValue] at hx ⊢
  refine readsNames_settings.replaceFrom (fun items htree => ?_)
    (fun ms htree m hm hname y z => ?_) hx
  · -- settings that are an array as a whole
    exact hkeeps "" (by simp [listedPointers, htree])
  · -- or an object, in which a group may be an array
    refine read_replaceFrom hunread hname fun items harr => ?_
    have hlisted : pointerText ('/' :: escapeName m.1) ∈ listedPointers v := by
      rw [listedPointers, htree]
      exact List.mem_filterMap.mpr ⟨m, hm, by simp [harr, hname]⟩
    simpa [pointerText] using hkeeps _ hlisted

/-- Settings with a name that was mistyped and one that is no longer read. -/
def mistyped : Value :=
  .ofJson (.obj [("catalog", .obj [("colour", .str "blue"), ("course", .str "MMath")]),
    ("legacy", .arr [.null])])

/-- Other leaves for what is unused in them. -/
def corrected (pointer : String) : Option Leaf :=
  if pointer = "/catalog/colour" then some .null
  else if pointer = "/legacy/0" then some (.str "delay")
  else none

theorem ofValue_replaceLeaves_mistyped :
    let x : Settings := { catalog := { course := some "MMath" } }
    let pointers := ["/catalog/colour", "/legacy/0"]
    ofValue mistyped = .ok x ∧ reportUnused .tell mistyped = .ok pointers ∧
      (∀ p, (corrected p).isSome → p ∈ pointers ∧ isListed mistyped p = false) ∧
      replaceLeaves corrected mistyped ≠ mistyped ∧
      ofValue (replaceLeaves corrected mistyped) = .ok x := by
  intro x pointers
  have hx : ofValue mistyped = .ok x := by decide +kernel
  have hreport : reportUnused .tell mistyped = .ok pointers := by
    have hleaves : ((leafPointers mistyped).filter fun p => !isRead p) = pointers := by
      decide +kernel
    have hunused : unusedPointers mistyped = pointers := by
      rw [unusedPointers, hleaves, List.mergeSort_of_pairwise (by decide)]
      rfl
    rw [reportUnused, hunused]
    rfl
  have hnew : ∀ p, (corrected p).isSome → p ∈ pointers ∧ isListed mistyped p = false := by
    intro p hp
    unfold corrected at hp
    split at hp
    · next heq => exact heq ▸ by decide +kernel
    · split at hp
      · next heq => exact heq ▸ by decide +kernel
      · cases hp
  refine ⟨hx, hreport, hnew, by decide +kernel, ?_⟩
  exact ofValue_replaceLeaves hx hreport hnew

/-- A group that is written as an array. The first of its fields is the course, though nothing is
said to be read at the pointer of the first item. -/
theorem not_unread_listed :
    let v (course : String) : Value := .ofJson (.obj [("catalog", .arr [.str course])])
    let new (pointer : String) : Option Leaf :=
      if pointer = "/catalog/0" then some (.str "MSci") else none
    reportUnused .tell (v "MMath") = .ok ["/catalog/0"] ∧
      ofValue (v "MMath") = .ok { catalog := { course := some "MMath" } } ∧
      replaceLeaves new (v "MMath") = v "MSci" ∧
      ofValue (v "MSci") = .ok { catalog := { course := some "MSci" } } := by
  intro v new
  have hreport : reportUnused .tell (v "MMath") = .ok ["/catalog/0"] := by
    have hleaves : ((leafPointers (v "MMath")).filter fun p => !isRead p) = ["/catalog/0"] := by
      decide +kernel
    have hunused : unusedPointers (v "MMath") = ["/catalog/0"] := by
      rw [unusedPointers, hleaves, List.mergeSort_singleton]
      rfl
    rw [reportUnused, hunused]
    rfl
  exact ⟨hreport, by decide +kernel, by decide +kernel, by decide +kernel⟩

end Prospectus.Settings
