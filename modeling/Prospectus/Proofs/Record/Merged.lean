import Prospectus.Proofs.Record.Codec

/-! # Decoding a merged module

A merged module stands around its record with two more fields, so the extra fields of the record
have to avoid these names as well (`MergedModule.decode_of_perm`). The members of the record are
kept until all members were met, and decoded then. What is decoded has no extra field under one of
the two names (`MergedModule.ownNames_of_decode`).

The module and its record are written side by side in one object, and the reader has to sort the
members out again. It takes the two names for itself and hands everything else on. This is the
second of two such levels: the record in turn takes its declared names and keeps the rest as extra
fields. So a name is looked at twice, in this order, and a record with an extra field under one of
the two names is written as an object that has the name twice. -/

namespace Prospectus

open Json Json.Source

theorem AcademicYear.list_decode_toJson (years : List AcademicYear) :
    (ofJson (.arr (years.map toJson))).list decode = .ok years := by
  rw [list_ofJson, List.mapM_map]
  exact mapM_eq_ok_iff.mpr (List.forall₂_same.mpr fun _ _ => rfl)

namespace MergedModule

/-- The names of the two fields that a merged module has beside those of its record. -/
def ownNames : List String := ["available_years", "rules_by_year"]

theorem decodeRules_toJson (rules : Dict AcademicYear Value) :
    decodeRules (ofJson (.obj (rules.entries.map fun e => (e.1.label, e.2.tree)))) = .ok rules := by
  have hvalue (v : Value) : (ofJson v.tree).value = .ok v := by
    rw [value_ofJson, Value.ofJson_tree]
  rw [decodeRules, foldMembers_ofJson]
  have hfold := foldlM_insert AcademicYear.mk AcademicYear.label Source.value Value.tree
    (fun _ => rfl) hvalue rules.entries ∅
  exact hfold.trans (congrArg Except.ok rules.ofList_entries)

/-- The members of the encoding. -/
def members (m : MergedModule) : List (String × Json) :=
  m.record.members ++ ("available_years", .arr (m.availableYears.map AcademicYear.toJson)) ::
    match m.rulesByYear with
    | none => []
    | some rules => [("rules_by_year", .obj (rules.entries.map fun e => (e.1.label, e.2.tree)))]

section

variable {m : MergedModule}

theorem mem_members_iff {member : String × Json} : member ∈ m.members ↔
    member ∈ m.record.members ∨
    member = ("available_years", .arr (m.availableYears.map AcademicYear.toJson)) ∨
    ∃ rules, m.rulesByYear = some rules ∧
      member = ("rules_by_year", .obj (rules.entries.map fun e => (e.1.label, e.2.tree))) := by
  rw [members, List.mem_append, List.mem_cons]
  cases m.rulesByYear <;> simp

theorem name_not_mem_ownNames (f : Record.Field) : f.name ∉ ownNames := by
  cases f <;> decide

theorem fst_not_mem_ownNames (hown : ∀ name ∈ ownNames, m.record.extra.find? name = none)
    {member : String × Json} (h : member ∈ m.record.members) : member.1 ∉ ownNames := by
  obtain ⟨f, hf, -⟩ | ⟨v, hv, -⟩ := Record.mem_members_iff.mp h
  · exact hf ▸ name_not_mem_ownNames f
  · intro hname
    rw [hown _ hname] at hv
    cases hv

/-- The members that do not belong to the module itself are those of its record. -/
theorem filter_members (hown : ∀ name ∈ ownNames, m.record.extra.find? name = none) :
    m.members.filter (fun member => member.1 ∉ ownNames) = m.record.members := by
  have hrecord : m.record.members.filter (fun member => member.1 ∉ ownNames) = m.record.members :=
    List.filter_eq_self.mpr fun member h => decide_eq_true (fst_not_mem_ownNames hown h)
  rw [members, List.filter_append, hrecord]
  cases m.rulesByYear <;> simp [ownNames]

theorem nodup_names (hapart : m.record.ExtraApart)
    (hown : ∀ name ∈ ownNames, m.record.extra.find? name = none) :
    (m.members.map Prod.fst).Nodup := by
  have hnames : ∀ name ∈ m.record.members.map Prod.fst, name ∉ ownNames := by
    intro name hname
    obtain ⟨member, hmember, rfl⟩ := List.mem_map.mp hname
    exact fst_not_mem_ownNames hown hmember
  rw [members, List.map_append, List.nodup_append]
  refine ⟨Record.nodup_names hapart, by cases m.rulesByYear <;> simp, ?_⟩
  rintro name hname _ hother rfl
  refine hnames name hname ?_
  cases hrules : m.rulesByYear with
  | none => simp_all [ownNames]
  | some rules => simpa [hrules, ownNames] using hother

/-- What is drafted of `m` once some members of its encoding were read. -/
structure Draft.Reads (d : Draft) (m : MergedModule) (done : List (String × Json)) : Prop where
  availableYears : d.availableYears =
    if "available_years" ∈ done.map Prod.fst then some m.availableYears else none
  rulesByYear : d.rulesByYear =
    if "rules_by_year" ∈ done.map Prod.fst then m.rulesByYear.map some else none
  recordMembers : d.recordMembers = done.filter fun member => member.1 ∉ ownNames

theorem Draft.Reads.read {d : Draft} {done : List (String × Json)} (h : d.Reads m done)
    (hown : ∀ name ∈ ownNames, m.record.extra.find? name = none) {member : String × Json}
    (hmember : member ∈ m.members) (hnew : member.1 ∉ done.map Prod.fst) :
    ∃ d', d.read member.1 (ofJson member.2) = .ok d' ∧ d'.Reads m (done ++ [member]) := by
  have hmem (name : String) : name ∈ (done ++ [member]).map Prod.fst ↔
      name ∈ done.map Prod.fst ∨ name = member.1 := by
    rw [List.map_append, List.mem_append, List.map_singleton, List.mem_singleton]
  obtain hrecord | rfl | ⟨rules, hrules, rfl⟩ := mem_members_iff.mp hmember
  · -- a member of the record is kept for later
    have hname := fst_not_mem_ownNames hown hrecord
    simp only [ownNames, List.mem_cons, List.not_mem_nil, or_false, not_or] at hname
    refine ⟨{ d with recordMembers := d.recordMembers ++ [member] }, ?_, ?_, ?_, ?_⟩
    · simp only [Draft.read, hname, if_false, any_ofJson]
      rfl
    · refine h.availableYears.trans (if_congr ?_ rfl rfl)
      rw [hmem, or_iff_left (Ne.symm hname.1)]
    · refine h.rulesByYear.trans (if_congr ?_ rfl rfl)
      rw [hmem, or_iff_left (Ne.symm hname.2)]
    · simp [h.recordMembers, ownNames, hname]
  · -- the years were not met before, since the name stands only once
    have hyears : d.availableYears = none := h.availableYears.trans (if_neg hnew)
    refine ⟨{ d with availableYears := some m.availableYears }, ?_, ?_, ?_, ?_⟩
    · simp only [Draft.read, if_true, once, hyears, AcademicYear.list_decode_toJson]
      rfl
    · exact (if_pos ((hmem _).mpr (.inr rfl))).symm
    · refine h.rulesByYear.trans (if_congr ?_ rfl rfl)
      rw [hmem, or_iff_left (by simp)]
    · simp [h.recordMembers, ownNames]
  · -- the rules by year in the same way
    have hnone : d.rulesByYear = none := h.rulesByYear.trans (if_neg hnew)
    have hread : Source.optional decodeRules
        (ofJson (.obj (rules.entries.map fun e => (e.1.label, e.2.tree)))) = .ok (some rules) :=
      congrArg (Except.map some) (decodeRules_toJson rules)
    refine ⟨{ d with rulesByYear := some (some rules) }, ?_, ?_, ?_, ?_⟩
    · simp only [Draft.read, once, hnone, hread]
      rfl
    · refine h.availableYears.trans (if_congr ?_ rfl rfl)
      rw [hmem, or_iff_left (by simp)]
    · show some (some rules) = _
      rw [if_pos ((hmem _).mpr (.inr rfl)), hrules]
      rfl
    · simp [h.recordMembers, ownNames]

/-- A merged module is decoded from the members of its encoding, in whatever order they stand, if no
extra field has one of the names that the encoding uses. -/
theorem decode_of_perm (hapart : m.record.ExtraApart)
    (hown : ∀ name ∈ ownNames, m.record.extra.find? name = none) {listed : List (String × Json)}
    (hlisted : listed.Perm m.members) : decode (ofJson (.obj listed)) = .ok m := by
  have hnames : (listed.map Prod.fst).Nodup :=
    (hlisted.map Prod.fst).nodup_iff.mpr (nodup_names hapart hown)
  have hstart : Draft.Reads {} m [] := ⟨rfl, rfl, rfl⟩
  have hstep : ∀ done member rest (d : Draft), listed = done ++ member :: rest → d.Reads m done →
      ∃ d', d.read member.1 (ofJson member.2) = .ok d' ∧ d'.Reads m (done ++ [member]) := by
    intro done member rest d hsplit hd
    have hmember : member ∈ listed := hsplit ▸ List.mem_append_right _ List.mem_cons_self
    exact hd.read hown (hlisted.mem_iff.mp hmember) (fst_not_mem_of_nodup (hsplit ▸ hnames))
  obtain ⟨d, hfold, hd⟩ := exists_foldlM_eq_ok hstart hstep
  -- both names of the merged module were met if they were written
  have hyears : d.availableYears = some m.availableYears := by
    rw [hd.availableYears, if_pos]
    exact List.mem_map_of_mem (hlisted.mem_iff.mpr (mem_members_iff.mpr (.inr (.inl rfl))))
  have hrules : d.rulesByYear.join = m.rulesByYear := by
    rw [hd.rulesByYear]
    cases hm : m.rulesByYear with
    | none => split <;> rfl
    | some rules =>
      rw [if_pos]
      · rfl
      · exact List.mem_map_of_mem
          (hlisted.mem_iff.mpr (mem_members_iff.mpr (.inr (.inr ⟨rules, hm, rfl⟩))))
  -- what was kept for the record is its members in some order
  have hrecord : Record.decode (ofJson (.obj d.recordMembers)) = .ok m.record := by
    rw [hd.recordMembers]
    exact Record.decode_of_perm hapart (filter_members hown ▸ hlisted.filter _)
  rw [decode, foldMembers_ofJson, hfold]
  show (required d.availableYears _ >>= fun years => _ >>= fun record => _) = _
  rw [hyears, hrecord]
  exact congrArg (fun rules => Except.ok { m with rulesByYear := rules }) hrules

/-- A merged module is decoded from its encoding if no extra field has one of the names that the
encoding uses. -/
theorem decode_toJson (hapart : m.record.ExtraApart)
    (hown : ∀ name ∈ ownNames, m.record.extra.find? name = none) :
    decode (ofJson m.toJson) = .ok m :=
  decode_of_perm hapart hown (.refl _)

end

/-! ### What a decoded merged module holds

As for records, any source that was accepted will do here. Neither the rules by year nor the record
can have come from a part that was not read to its end. -/

theorem once_eq_ok {α : Type} {found : Option α} {name : String} {d : Decoder α} {s : Source}
    {o : Option α} (h : once found name d s = .ok o) : ∃ x, d s = .ok x ∧ o = some x := by
  unfold once at h
  split at h
  · cases h
  · obtain ⟨x, hx, h⟩ := map_eq_ok_iff.mp h
    exact ⟨x, hx, h.symm⟩

/-- The members of the record are those that do not belong to the two fields beside it. -/
theorem recordMembers_of_read {d d' : Draft} {name : String} {s : Source}
    (h : d.read name s = .ok d') (hd : ∀ m ∈ d.recordMembers, m.1 ∉ ownNames) :
    ∀ m ∈ d'.recordMembers, m.1 ∉ ownNames := by
  unfold Draft.read at h
  split_ifs at h with hyears hrules
  · -- the two names of the module are read, and every other member is kept
    obtain ⟨o, -, h⟩ := bind_eq_ok_iff.mp h
    cases h
    exact hd
  · obtain ⟨o, -, h⟩ := bind_eq_ok_iff.mp h
    cases h
    exact hd
  · obtain ⟨j, -, h⟩ := bind_eq_ok_iff.mp h
    cases h
    intro m hm
    rcases List.mem_append.mp hm with hm | hm
    · exact hd m hm
    · obtain rfl := List.mem_singleton.mp hm
      simp [ownNames, hyears, hrules]

/-- No decoded module has an extra field under one of the two names. -/
theorem ownNames_of_decode {s : Source} {m : MergedModule} (h : decode s = .ok m) :
    ∀ name ∈ ownNames, m.record.extra.find? name = none := by
  obtain ⟨d, hd, h⟩ := bind_eq_ok_iff.mp h
  obtain ⟨years, -, h⟩ := bind_eq_ok_iff.mp h
  obtain ⟨record, hrecord, h⟩ := bind_eq_ok_iff.mp h
  cases h
  obtain ⟨members, rfl, hfold⟩ := foldMembers_eq_ok_iff.mp hd
  have hnames : ∀ m ∈ d.recordMembers, m.1 ∉ ownNames :=
    foldlM_invariant (P := fun d => ∀ m ∈ d.recordMembers, m.1 ∉ ownNames) hfold
      (List.forall_mem_nil _) fun _ _ _ _ hprev hread => recordMembers_of_read hread hprev
  obtain ⟨recordMembers, hsource, htaken⟩ := Record.takenFrom_of_decode hrecord
  intro name hname
  cases hfind : record.extra.find? name with
  | none => rfl
  | some v =>
    -- the record was decoded from the members that were kept for it, under their own names
    obtain ⟨-, s, hs, -⟩ := htaken.extra name v hfind
    rw [ofJson, ofMembers_eq_map] at hsource
    have hmem : (some name, s) ∈ d.recordMembers.map fun m => (some m.1, ofJson m.2) := by
      rw [Source.obj.inj hsource |>.1]
      exact List.mem_map.mpr ⟨(name, s), hs, rfl⟩
    obtain ⟨member, hmember, heq⟩ := List.mem_map.mp hmem
    cases heq
    exact absurd hname (hnames member hmember)

theorem readsAll_decodeRules : ReadsAll decodeRules := by
  refine ReadsAll.foldMembers fun found name s next h => ?_
  obtain ⟨v, hv, -⟩ := bind_eq_ok_iff.mp h
  exact ReadsAll.value s v hv

/-- A merged module is decoded only from a tree that is read to its end. -/
theorem readsAll_decode : ReadsAll decode := by
  have hread : ∀ (d : Draft) name s d', d.read name s = .ok d' → ∃ j, s.toJson = .ok j := by
    intro d name s d' h
    have hyear : ReadsAll AcademicYear.decode := by
      intro s y hy
      obtain ⟨t, ht, -⟩ := map_eq_ok_iff.mp hy
      exact ReadsAll.text s t ht
    unfold Draft.read at h
    -- each branch ran a reader to its end, and a reader that does has found a tree
    split_ifs at h
    · obtain ⟨o, ho, -⟩ := bind_eq_ok_iff.mp h
      obtain ⟨x, hx, -⟩ := once_eq_ok ho
      exact hyear.list s x hx
    · obtain ⟨o, ho, -⟩ := bind_eq_ok_iff.mp h
      obtain ⟨x, hx, -⟩ := once_eq_ok ho
      exact readsAll_decodeRules.optional s x hx
    · obtain ⟨j, hj, -⟩ := bind_eq_ok_iff.mp h
      exact ReadsAll.any s j hj
  intro s m h
  obtain ⟨d, hd, -⟩ := bind_eq_ok_iff.mp h
  exact ReadsAll.foldMembers hread s d hd

end MergedModule

end Prospectus
