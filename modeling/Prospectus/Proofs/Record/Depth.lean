import Prospectus.Proofs.Record.Merged

/-!
# How deep the values of records go

In every document the values of a record stand inside the record, the list of records and the
document, so a reader has room for `recordRoom` more levels inside them. A record that was read from
the text of a snapshot keeps to that (`Snapshot.fits_of_decodeText`), and so does its encoding as a
part of a merged module; only the rules by year stand one level deeper
(`MergedModule.height_toJson_le_iff`).
-/

namespace Prospectus

open Json Json.Source

/-- How many arrays and objects may be open inside the values of a record, given the three around
them: the record, the list that it stands in and the document. -/
def recordRoom : Nat := maxDepth - 3

/-- A value is no higher than the tree that it was read from. -/
theorem Json.Source.height_of_value {s : Source} {v : Value} (h : s.value = .ok v) :
    v.tree.height ≤ s.height := by
  obtain ⟨j, hj, rfl⟩ := map_eq_ok_iff.mp h
  rw [← height_of_toJson (DecodeError.ofFault_eq_ok_iff.mp hj)]
  exact height_normalize_le j

/-- The values of a record that may be trees of any shape have room enough. All other values of a
record are texts or flat. -/
structure Record.Fits (r : Record) : Prop where
  extra : ∀ name v, r.extra.find? name = some v → v.tree.height ≤ recordRoom
  moduleRules : r.moduleRules.tree.height ≤ recordRoom

/-! ### Records of a snapshot

Room is counted from the document inwards: the document is one level, the list of records the next,
a record the third. Each reader passes on to its parts the bound on the height that its own source
has, less one. A snapshot may also be read from a list of its fields by position; the records are in
the same depth then. -/

theorem Record.TakenFrom.fits {r : Record} {members : List (String × Source)}
    (h : r.TakenFrom members) (hmembers : ∀ m ∈ members, m.2.height ≤ recordRoom) : r.Fits where
  extra name v hv := by
    obtain ⟨-, s, hs, hvalue⟩ := h.extra name v hv
    exact (height_of_value hvalue).trans (hmembers (name, s) hs)
  moduleRules := by
    rcases h.moduleRules with htext | ⟨m, hm, hvalue⟩
    · rw [htext]
      exact Nat.zero_le _
    · exact (height_of_value hvalue).trans (hmembers m hm)

/-- A record from a source that has room for it keeps apart from the declared names and fits. -/
theorem Record.fits_of_decode {s : Source} {r : Record} (h : decode s = .ok r)
    (hs : s.height ≤ recordRoom + 1) : r.ExtraApart ∧ r.Fits := by
  obtain ⟨members, rfl, htaken⟩ := takenFrom_of_decode h
  refine ⟨htaken.extraApart, htaken.fits fun m hm => ?_⟩
  exact height_obj_le_iff.mp hs (some m.1, m.2) (List.mem_map.mpr ⟨m, hm, rfl⟩)

/-- The records of a list that has room for them. -/
theorem Record.fits_of_list_decode {s : Source} {rs : List Record}
    (h : s.list decode = .ok rs) (hs : s.height ≤ recordRoom + 2) :
    ∀ r ∈ rs, r.ExtraApart ∧ r.Fits := by
  obtain ⟨items, rfl, hitems⟩ := list_eq_ok_iff.mp h
  intro r hr
  obtain ⟨item, hitem, hdecode⟩ := exists_mem_of_mem_mapM hitems hr
  exact fits_of_decode hdecode (height_arr_le_iff.mp hs item hitem)

theorem Json.Source.eq_of_fieldAt {α : Type} {d : Decoder α} {default : Except DecodeError α}
    {items : List Source} {ending : Ending} {i : Nat} {x : α}
    (h : fieldAt d default items ending i = .ok x) :
    (∃ s ∈ items, d s = .ok x) ∨ default = .ok x := by
  obtain ⟨item, hitem, h⟩ := bind_eq_ok_iff.mp h
  unfold item? at hitem
  split at hitem
  · next s hs =>
    cases hitem
    exact .inl ⟨s, List.mem_of_getElem? hs, h⟩
  · obtain ⟨u, -, rfl⟩ := map_eq_ok_iff.mp hitem
    exact .inr h

theorem Snapshot.fits_of_read {d d' : Snapshot.Draft} {name : String} {s : Source}
    (h : d.read name s = .ok d') (hs : s.height ≤ recordRoom + 2)
    (hd : ∀ r ∈ d.modules.getD [], r.ExtraApart ∧ r.Fits) :
    ∀ r ∈ d'.modules.getD [], r.ExtraApart ∧ r.Fits := by
  unfold Draft.read at h
  -- one case for each member that a snapshot knows; only the modules matter
  split_ifs at h
  · obtain ⟨o, -, h⟩ := bind_eq_ok_iff.mp h
    cases h
    exact hd
  · obtain ⟨o, -, h⟩ := bind_eq_ok_iff.mp h
    cases h
    exact hd
  · obtain ⟨o, -, h⟩ := bind_eq_ok_iff.mp h
    cases h
    exact hd
  · obtain ⟨o, -, h⟩ := bind_eq_ok_iff.mp h
    cases h
    exact hd
  · obtain ⟨o, ho, h⟩ := bind_eq_ok_iff.mp h
    obtain ⟨rs, hrs, rfl⟩ := MergedModule.once_eq_ok ho
    cases h
    exact Record.fits_of_list_decode hrs hs
  · obtain ⟨u, -, h⟩ := bind_eq_ok_iff.mp h
    cases h
    exact hd

/-- The records of a snapshot, in either form of the document. -/
theorem Snapshot.fits_of_decode {form : Form} {s : Source} {d : Snapshot}
    (h : decode form s = .ok d) (hs : s.height ≤ maxDepth) :
    ∀ r ∈ d.modules, r.ExtraApart ∧ r.Fits := by
  unfold decode at h
  split at h
  · -- the form of a list, in which the records are one of the items
    next items ending =>
    have hitems : ∀ x ∈ items, x.height ≤ recordRoom + 2 := height_arr_le_iff.mp hs
    obtain ⟨course, -, h⟩ := bind_eq_ok_iff.mp h
    obtain ⟨year, -, h⟩ := bind_eq_ok_iff.mp h
    obtain ⟨school, -, h⟩ := bind_eq_ok_iff.mp h
    obtain ⟨scraped, -, h⟩ := bind_eq_ok_iff.mp h
    obtain ⟨modules, hmodules, h⟩ := bind_eq_ok_iff.mp h
    obtain ⟨u, -, h⟩ := bind_eq_ok_iff.mp h
    cases h
    rcases eq_of_fieldAt hmodules with ⟨x, hx, hlist⟩ | hnone
    · exact Record.fits_of_list_decode hlist (hitems x hx)
    · cases hnone
      exact List.forall_mem_nil _
  · -- the form of an object: reading a member keeps that the records found so far fit
    obtain ⟨draft, hdraft, h⟩ := bind_eq_ok_iff.mp h
    obtain ⟨year, -, h⟩ := bind_eq_ok_iff.mp h
    cases h
    obtain ⟨members, rfl, hfold⟩ := foldMembers_eq_ok_iff.mp hdraft
    have hmembers : ∀ m ∈ members, m.2.height ≤ recordRoom + 2 := fun m hm =>
      height_obj_le_iff.mp hs (some m.1, m.2) (List.mem_map.mpr ⟨m, hm, rfl⟩)
    exact foldlM_invariant (P := fun d => ∀ r ∈ d.modules.getD [], r.ExtraApart ∧ r.Fits) hfold
      (List.forall_mem_nil _) fun d m hm d' hd hread => fits_of_read hread (hmembers m hm) hd

/-- The records of a snapshot that was read from a text. -/
theorem Snapshot.fits_of_decodeText {form : Form} {text : String} {d : Snapshot}
    (h : decodeText (decode form) text = .ok d) : ∀ r ∈ d.modules, r.ExtraApart ∧ r.Fits := by
  obtain ⟨s, hs, hd⟩ := exists_source_of_decodeText h
  exact fits_of_decode hd hs

/-! ### Encodings

The other direction: how high an encoding is, given what is known of the values. In a catalogue the
rules of a year stand inside a dictionary, which takes a level that the record does not have. -/

theorem Record.height_members_le {r : Record} (h : r.Fits) :
    ∀ m ∈ r.members, m.2.height ≤ recordRoom := by
  intro m hm
  rw [members, List.mem_append] at hm
  -- only the rules and the extra fields have a depth of their own
  rcases hm with hfield | hextra
  · obtain ⟨f, -, rfl⟩ := List.mem_map.mp hfield
    cases f with
    | moduleRules => exact h.moduleRules
    | prerequisiteCodes =>
      refine Json.height_arr_le_iff.mpr fun x hx => ?_
      obtain ⟨code, -, rfl⟩ := List.mem_map.mp hx
      exact Nat.zero_le _
    | contentSections =>
      refine Json.height_obj_le_iff.mpr fun x hx => ?_
      obtain ⟨e, -, rfl⟩ := List.mem_map.mp hx
      exact Nat.zero_le _
    | moduleCode | yearOfStudy | sectionLabel | creditRule | notes | description | assessment
    | credits | period | subSlot | tableInfo => exact Nat.zero_le _
  · obtain ⟨e, he, rfl⟩ := List.mem_map.mp hextra
    exact h.extra e.1 e.2 (Dict.mem_entries_iff.mp he)

/-- The encoding of a merged module is as high as its record allows, but for the rules by year. -/
theorem MergedModule.height_toJson_le_iff {m : MergedModule} (h : m.record.Fits) :
    m.toJson.height ≤ recordRoom + 1 ↔
      ∀ rules ∈ m.rulesByYear, ∀ v ∈ rules.values, v.tree.height < recordRoom := by
  have hyears : (Json.arr (m.availableYears.map AcademicYear.toJson)).height ≤ recordRoom := by
    refine Json.height_arr_le_iff.mpr fun x hx => ?_
    obtain ⟨y, -, rfl⟩ := List.mem_map.mp hx
    exact Nat.zero_le _
  have hrecord := Record.height_members_le h
  rw [toJson, Json.height_obj_le_iff, List.forall_mem_append, List.forall_mem_cons]
  cases m.rulesByYear with
  | none =>
    have hnone : ∀ rules ∈ (none : Option (Dict AcademicYear Value)), ∀ v ∈ rules.values,
        v.tree.height < recordRoom :=
      fun rules hr => absurd hr (Option.not_mem_none rules)
    exact iff_of_true ⟨hrecord, hyears, List.forall_mem_nil _⟩ hnone
  | some rules =>
    -- the object of the years is itself a value beside those of the record, so the rules in it have
    -- one level less
    have hrules :
        (Json.obj (rules.entries.map fun e => (e.1.label, e.2.tree))).height ≤ recordRoom ↔
          ∀ v ∈ rules.values, v.tree.height < recordRoom := by
      rw [show recordRoom = (recordRoom - 1) + 1 from rfl, Json.height_obj_le_iff, Dict.values,
        List.forall_mem_map, List.forall_mem_map]
      exact forall₂_congr fun e _ => Nat.lt_succ_iff.symm
    -- years and members of the record are no deeper, so all depends on the rules
    constructor
    · rintro ⟨-, -, hrest⟩ rules' hrules'
      cases hrules'
      exact hrules.mp (hrest _ (List.mem_singleton_self _))
    · intro hall
      exact ⟨hrecord, hyears, fun x hx => List.mem_singleton.mp hx ▸ hrules.mpr (hall rules rfl)⟩

end Prospectus
