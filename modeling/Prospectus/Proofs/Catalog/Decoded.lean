import Prospectus.Proofs.Catalog.Stored

/-! # Decoded catalogues

A module of a catalogue that was read from a text is one that the text of a catalogue has a place
for (`Catalog.keepable_of_decodeText`): its extra fields have other names than the declared ones and
those beside the record, and all its values, the rules by year included, lie within the depth that a
reader goes.

Whether a catalogue survives its text is a question about its modules, and it is asked of catalogues
of any origin. For one that was read, the answer is always that it does, as what makes a module
unfit cannot be written down in the first place: a name is read as a declared field before it can
become an extra one, and the reader gives up on values that are too deep. So a document that was
read once can be written and read for ever. -/

namespace Prospectus

open Json Json.Source

namespace MergedModule

/-- What the text of a catalogue can hold of a module: a proper record, and rules that have room. -/
structure Keepable (m : MergedModule) : Prop where
  apart : m.record.ExtraApart
  fits : m.record.Fits
  storable : m.Storable

/-! ### Reading one module

Members are read one by one into a draft, and the conditions on a module are conditions on the
draft at every step. The depth of a value is bounded by that of the source that it comes from, and
the bound gets smaller by one with every level that the reader goes down. -/

/-- Rules by year are less deep than the object that they stand in. -/
theorem height_of_decodeRules {s : Source} {rules : Dict AcademicYear Value} {room : Nat}
    (h : decodeRules s = .ok rules) (hs : s.height ≤ room) :
    ∀ v ∈ rules.values, v.tree.height < room := by
  obtain ⟨members, rfl, hfold⟩ := foldMembers_eq_ok_iff.mp h
  cases room with
  | zero => exact absurd hs (Nat.not_succ_le_zero _)
  | succ room =>
    have hmembers : ∀ m ∈ members, m.2.height ≤ room := fun m hm =>
      height_obj_le_iff.mp hs (some m.1, m.2) (List.mem_map.mpr ⟨m, hm, rfl⟩)
    refine foldlM_invariant (P := fun found => ∀ v ∈ found.values, v.tree.height < room + 1) hfold
      (List.forall_mem_nil _) fun found m hm next hfound hread => ?_
    obtain ⟨w, hw, hread⟩ := bind_eq_ok_iff.mp hread
    cases hread
    intro v hv
    -- a value stands at its year because it was read now or was there before
    obtain ⟨y, hy⟩ := Dict.mem_values_iff.mp hv
    rw [Dict.find?_insert] at hy
    split_ifs at hy
    · cases hy
      exact Nat.lt_succ_of_le ((height_of_value hw).trans (hmembers m hm))
    · exact hfound v (Dict.mem_values_iff.mpr ⟨y, hy⟩)

/-- What was read of a module so far lies within the depth of a record. -/
structure Draft.Fits (d : Draft) : Prop where
  recordMembers : ∀ m ∈ d.recordMembers, m.2.height ≤ recordRoom
  rulesByYear : ∀ rules ∈ d.rulesByYear.join, ∀ v ∈ rules.values, v.tree.height < recordRoom

/-- One more member keeps what was read within the depth. -/
theorem Draft.Fits.read {d d' : Draft} {name : String} {s : Source} (hd : d.Fits)
    (h : d.read name s = .ok d') (hs : s.height ≤ recordRoom) : d'.Fits := by
  unfold Draft.read at h
  split_ifs at h
  · -- the years: nothing that is kept for later comes of them
    obtain ⟨o, -, h⟩ := bind_eq_ok_iff.mp h
    cases h
    exact ⟨hd.recordMembers, hd.rulesByYear⟩
  · -- the rules by year: each of their values lies inside the one that was read
    obtain ⟨o, ho, h⟩ := bind_eq_ok_iff.mp h
    cases h
    refine ⟨hd.recordMembers, ?_⟩
    obtain ⟨rules?, hrules, rfl⟩ := once_eq_ok ho
    intro rules hmem
    unfold Source.optional at hrules
    split at hrules
    · cases hrules
      cases hmem
    · obtain ⟨rules', hrules', rfl⟩ := map_eq_ok_iff.mp hrules
      cases hmem
      exact height_of_decodeRules hrules' hs
  · -- any other member is kept for the record, as deep as it was read
    obtain ⟨j, hj, h⟩ := bind_eq_ok_iff.mp h
    cases h
    refine ⟨?_, hd.rulesByYear⟩
    intro m hm
    rcases List.mem_append.mp hm with hm | hm
    · exact hd.recordMembers m hm
    · obtain rfl := List.mem_singleton.mp hm
      exact (height_of_toJson (DecodeError.ofFault_eq_ok_iff.mp hj)).trans_le hs

/-- A module that was read has a proper record, and rules that have room. -/
theorem keepable_of_decode {s : Source} {m : MergedModule} (h : decode s = .ok m)
    (hs : s.height ≤ recordRoom + 1) : m.Keepable := by
  have hown := ownNames_of_decode h
  obtain ⟨d, hd, h⟩ := bind_eq_ok_iff.mp h
  obtain ⟨years, -, h⟩ := bind_eq_ok_iff.mp h
  obtain ⟨record, hrecord, h⟩ := bind_eq_ok_iff.mp h
  cases h
  obtain ⟨members, rfl, hfold⟩ := foldMembers_eq_ok_iff.mp hd
  have hmembers : ∀ m ∈ members, m.2.height ≤ recordRoom := fun m hm =>
    height_obj_le_iff.mp hs (some m.1, m.2) (List.mem_map.mpr ⟨m, hm, rfl⟩)
  have hstart : Draft.Fits {} := ⟨List.forall_mem_nil _, fun _ hr => by cases hr⟩
  have hfits : d.Fits := foldlM_invariant (P := Draft.Fits) hfold hstart
    fun d m hm d' hd hread => hd.read hread (hmembers m hm)
  -- the record is decoded from the members kept for it, which are no deeper than they were read
  have hheight : (Source.ofJson (.obj d.recordMembers)).height ≤ recordRoom + 1 := by
    rw [← height_of_toJson (toJson_ofJson _)]
    exact Json.height_obj_le_iff.mpr hfits.recordMembers
  obtain ⟨hapart, hrecordFits⟩ := Record.fits_of_decode hrecord hheight
  exact ⟨hapart, hrecordFits, hown, hfits.rulesByYear⟩

/-- All modules of a list are as good as one. -/
theorem keepable_of_list_decode {s : Source} {ms : List MergedModule} (h : s.list decode = .ok ms)
    (hs : s.height ≤ recordRoom + 2) : ∀ m ∈ ms, m.Keepable := by
  obtain ⟨items, rfl, hitems⟩ := list_eq_ok_iff.mp h
  intro m hm
  obtain ⟨item, hitem, hdecode⟩ := exists_mem_of_mem_mapM hitems hm
  exact keepable_of_decode hdecode (height_arr_le_iff.mp hs item hitem)

end MergedModule

/-! ### Reading a catalogue

The modules are a list two levels below the document. All other members of a catalogue are texts
and labels, and say nothing about modules. -/

namespace Catalog

/-- One more member of a catalogue leaves its modules in good order. -/
theorem keepable_of_read {d d' : Draft} {name : String} {s : Source} (h : d.read name s = .ok d')
    (hs : s.height ≤ recordRoom + 2) (hd : ∀ m ∈ d.modules.getD [], m.Keepable) :
    ∀ m ∈ d'.modules.getD [], m.Keepable := by
  unfold Draft.read at h
  -- one case for each member that a catalogue knows; only the modules matter
  split_ifs at h
  · obtain ⟨o, -, h⟩ := bind_eq_ok_iff.mp h
    cases h
    exact hd
  · obtain ⟨o, -, h⟩ := bind_eq_ok_iff.mp h
    cases h
    exact hd
  · obtain ⟨o, -, h⟩ := bind_eq_ok_iff.mp h
    cases h
    exact hd
  · obtain ⟨o, ho, h⟩ := bind_eq_ok_iff.mp h
    obtain ⟨ms, hms, rfl⟩ := MergedModule.once_eq_ok ho
    cases h
    exact MergedModule.keepable_of_list_decode hms hs
  · obtain ⟨u, -, h⟩ := bind_eq_ok_iff.mp h
    cases h
    exact hd

/-- The modules of a catalogue, in either form of the document. -/
theorem keepable_of_decode {form : Form} {s : Source} {c : Catalog} (h : decode form s = .ok c)
    (hs : s.height ≤ maxDepth) : ∀ m ∈ c.modules, m.Keepable := by
  unfold decode at h
  split at h
  · -- the form of a list, in which the modules are one of the items
    next items ending =>
    have hitems : ∀ x ∈ items, x.height ≤ recordRoom + 2 := height_arr_le_iff.mp hs
    obtain ⟨course, -, h⟩ := bind_eq_ok_iff.mp h
    obtain ⟨school, -, h⟩ := bind_eq_ok_iff.mp h
    obtain ⟨years, -, h⟩ := bind_eq_ok_iff.mp h
    obtain ⟨modules, hmodules, h⟩ := bind_eq_ok_iff.mp h
    obtain ⟨u, -, h⟩ := bind_eq_ok_iff.mp h
    cases h
    rcases eq_of_fieldAt hmodules with ⟨x, hx, hlist⟩ | hmissing
    · exact MergedModule.keepable_of_list_decode hlist (hitems x hx)
    · cases hmissing
  · -- the form of an object: reading a member keeps what holds of the modules found so far
    obtain ⟨draft, hdraft, h⟩ := bind_eq_ok_iff.mp h
    obtain ⟨course, -, h⟩ := bind_eq_ok_iff.mp h
    obtain ⟨school, -, h⟩ := bind_eq_ok_iff.mp h
    obtain ⟨years, -, h⟩ := bind_eq_ok_iff.mp h
    obtain ⟨modules, hmodules, h⟩ := bind_eq_ok_iff.mp h
    cases h
    obtain ⟨members, rfl, hfold⟩ := foldMembers_eq_ok_iff.mp hdraft
    have hmembers : ∀ m ∈ members, m.2.height ≤ recordRoom + 2 := fun m hm =>
      height_obj_le_iff.mp hs (some m.1, m.2) (List.mem_map.mpr ⟨m, hm, rfl⟩)
    have hall : ∀ m ∈ draft.modules.getD [], m.Keepable :=
      foldlM_invariant (P := fun d => ∀ m ∈ d.modules.getD [], m.Keepable) hfold
        (List.forall_mem_nil _) fun d m hm d' hd hread => keepable_of_read hread (hmembers m hm) hd
    -- a catalogue without modules is refused
    cases hfound : draft.modules with
    | none =>
      rw [hfound] at hmodules
      cases hmodules
    | some found =>
      rw [hfound] at hmodules hall
      cases hmodules
      exact hall

/-- The modules of a catalogue that was read from a text. -/
theorem keepable_of_decodeText {form : Form} {text : String} {c : Catalog}
    (h : decodeText (decode form) text = .ok c) : ∀ m ∈ c.modules, m.Keepable := by
  obtain ⟨s, hs, hc⟩ := exists_source_of_decodeText h
  exact keepable_of_decode hc hs

end Catalog

end Prospectus
