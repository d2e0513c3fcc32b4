import Mathlib.Data.List.Nodup
import Prospectus.Proofs.Record.Fields

/-!
# Decoding a record

A draft is told by the members that were read (`Record.Draft.Reads`): a field has what its member
says, or its default if no member was met, and all other members are extra fields. So a record whose
extra fields have names of their own is decoded from the members of its encoding, in whatever order
they stand (`Record.decode_of_perm`). In the other direction, what is decoded from any source has
extra fields under no other names (`Record.TakenFrom`).
-/

namespace Prospectus

open Json Json.Source

/-! ### Names that stand once

An object may repeat a name, and then a reader of records fails or the last member wins, depending
on the name. An encoding repeats no name, so a list of its members is a dictionary in some order. -/

theorem fst_not_mem_of_nodup {α : Type _} {done rest : List (String × α)} {m : String × α}
    (h : ((done ++ m :: rest).map Prod.fst).Nodup) : m.1 ∉ done.map Prod.fst := by
  rw [List.map_append, List.nodup_append] at h
  exact fun hm => h.2.2 _ hm _ List.mem_cons_self rfl

theorem Dict.find?_ofList_eq_some_iff {α : Type _} {es : List (String × α)}
    (h : (es.map Prod.fst).Nodup) {name : String} {x : α} :
    (ofList es).find? name = some x ↔ (name, x) ∈ es := by
  rw [ofList, find?_insertAll, find?_empty, Option.or_none, findIn?_eq_some_iff, List.mem_reverse]
  intro p hp q hq hpq
  exact List.inj_on_of_nodup_map h (List.mem_reverse.mp hp) (List.mem_reverse.mp hq)
    (Std.LawfulEqOrd.eq_of_compare hpq)

namespace Record

/-! ### What is read of an object

Members fall into two groups, those with a place in a record and the others. `Draft.Reads` says of a
draft what it has of each group after some members were read; reading one more member keeps it,
whether the member is of the one group or the other. At the end of the object it describes the
record. -/

/-- The members of an object that have a place in a record, each with its field. -/
def fieldMembers (members : List (String × Json)) : List (Field × Json) :=
  members.filterMap fun m => (Field.ofName? m.1).map fun f => (f, m.2)

/-- The members of an object that have no place in a record. -/
def extraMembers (members : List (String × Json)) : List (String × Value) :=
  (members.filter fun m => Field.ofName? m.1 = none).map fun m => (m.1, .ofJson m.2)

section

variable {members : List (String × Json)} {name : String} {f : Field}

theorem fieldMembers_append (l l' : List (String × Json)) :
    fieldMembers (l ++ l') = fieldMembers l ++ fieldMembers l' :=
  List.filterMap_append

theorem extraMembers_append (l l' : List (String × Json)) :
    extraMembers (l ++ l') = extraMembers l ++ extraMembers l' := by
  simp only [extraMembers, List.filter_append, List.map_append]

theorem fieldMembers_of_field (h : Field.ofName? name = some f) (x : Json) :
    fieldMembers [(name, x)] = [(f, x)] := by
  simp [fieldMembers, h]

theorem extraMembers_of_field (h : Field.ofName? name = some f) (x : Json) :
    extraMembers [(name, x)] = [] := by
  simp [extraMembers, h]

theorem fieldMembers_of_extra (h : Field.ofName? name = none) (x : Json) :
    fieldMembers [(name, x)] = [] := by
  simp [fieldMembers, h]

theorem extraMembers_of_extra (h : Field.ofName? name = none) (x : Json) :
    extraMembers [(name, x)] = [(name, .ofJson x)] := by
  simp [extraMembers, h]

theorem mem_fieldMembers_iff {x : Json} : (f, x) ∈ fieldMembers members ↔
    ∃ name, (name, x) ∈ members ∧ Field.ofName? name = some f := by
  simp [fieldMembers]

theorem mem_extraMembers_iff {v : Value} : (name, v) ∈ extraMembers members ↔
    Field.ofName? name = none ∧ ∃ x, (name, x) ∈ members ∧ v = .ofJson x := by
  simp only [extraMembers, List.mem_map, List.mem_filter, Prod.exists, Prod.mk.injEq,
    decide_eq_true_eq]
  constructor
  · rintro ⟨name, x, ⟨hm, hname⟩, rfl, rfl⟩
    exact ⟨hname, x, hm, rfl⟩
  · rintro ⟨hname, x, hm, rfl⟩
    exact ⟨name, x, ⟨hm, hname⟩, rfl, rfl⟩

theorem nodup_extraMembers (h : (members.map Prod.fst).Nodup) :
    ((extraMembers members).map Prod.fst).Nodup := by
  rw [extraMembers, List.map_map]
  exact h.sublist (List.filter_sublist.map Prod.fst)

end

/-- What is drafted once some members were read. -/
structure Draft.Reads (d : Draft) (members : List (String × Json)) : Prop where
  met : d.met = ((fieldMembers members).map Prod.fst).reverse
  nodup : d.met.Nodup
  field : ∀ e ∈ fieldMembers members, d.record.fieldJson e.1 = e.1.kept e.2
  default : ∀ f, f ∉ d.met → d.record.fieldJson f = (blank "" "").fieldJson f
  extra : d.record.extra = .ofList (extraMembers members)

namespace Draft.Reads

variable {d d' : Draft} {members : List (String × Json)}

theorem start : Draft.start.Reads [] where
  met := rfl
  nodup := .nil
  field := List.forall_mem_nil _
  default _ _ := rfl
  extra := rfl

theorem mem_met_iff (h : d.Reads members) {f : Field} :
    f ∈ d.met ↔ ∃ m ∈ members, Field.ofName? m.1 = some f := by
  rw [h.met, List.mem_reverse, List.mem_map]
  constructor
  · rintro ⟨⟨f, x⟩, he, rfl⟩
    obtain ⟨name, hm, hf⟩ := mem_fieldMembers_iff.mp he
    exact ⟨(name, x), hm, hf⟩
  · rintro ⟨⟨name, x⟩, hm, hf⟩
    exact ⟨(f, x), mem_fieldMembers_iff.mpr ⟨name, hm, hf⟩, rfl⟩

theorem read_field (h : d.Reads members) {name : String} {f : Field} {x : Json} {r : Record}
    (hname : Field.ofName? name = some f) (hmet : f ∉ d.met)
    (hr : d.record.readField f (ofJson x) = .ok r) :
    (Draft.mk r (f :: d.met)).Reads (members ++ [(name, x)]) := by
  obtain ⟨hwith, hkept⟩ := readField_ofJson hr
  have hfields : fieldMembers (members ++ [(name, x)]) = fieldMembers members ++ [(f, x)] := by
    rw [fieldMembers_append, fieldMembers_of_field hname]
  have hextras : extraMembers (members ++ [(name, x)]) = extraMembers members := by
    rw [extraMembers_append, extraMembers_of_field hname, List.append_nil]
  have hother (g : Field) (hg : g ≠ f) : r.fieldJson g = d.record.fieldJson g := by
    rw [hwith, fieldJson_withField_of_ne hg]
  -- the fields met, each once, what they hold, what the others hold, and the extra fields
  refine ⟨?_, List.nodup_cons.mpr ⟨hmet, h.nodup⟩, fun e he => ?_, fun g hg => ?_, ?_⟩
  · show f :: d.met = _
    rw [hfields, h.met, List.map_append, List.reverse_append]
    rfl
  · rw [hfields] at he
    obtain he | he := List.mem_append.mp he
    · -- the field was met before, so it is another one
      have hne : e.1 ≠ f := by
        intro heq
        apply hmet
        rw [h.met, List.mem_reverse, ← heq]
        exact List.mem_map.mpr ⟨e, he, rfl⟩
      show r.fieldJson e.1 = _
      rw [hother e.1 hne]
      exact h.field e he
    · obtain rfl := List.mem_singleton.mp he
      exact hkept
  · have hg' : g ≠ f ∧ g ∉ d.met := by simpa using hg
    show r.fieldJson g = _
    rw [hother g hg'.1]
    exact h.default g hg'.2
  · show r.extra = _
    rw [hextras, hwith, extra_withField]
    exact h.extra

theorem read_extra (h : d.Reads members) {name : String} (hname : Field.ofName? name = none)
    (x : Json) : ({ d with record := { d.record with
      extra := d.record.extra.insert name (.ofJson x) } } : Draft).Reads
        (members ++ [(name, x)]) := by
  have hfields : fieldMembers (members ++ [(name, x)]) = fieldMembers members := by
    rw [fieldMembers_append, fieldMembers_of_extra hname, List.append_nil]
  have hextras : extraMembers (members ++ [(name, x)]) =
      extraMembers members ++ [(name, .ofJson x)] := by
    rw [extraMembers_append, extraMembers_of_extra hname]
  -- the fields are as before, and the extra fields gain one
  refine ⟨?_, h.nodup, fun e he => ?_, fun g hg => ?_, ?_⟩
  · rw [hfields]
    exact h.met
  · rw [hfields] at he
    rw [fieldJson_with_extra]
    exact h.field e he
  · rw [fieldJson_with_extra]
    exact h.default g hg
  · show d.record.extra.insert name (.ofJson x) = _
    rw [hextras, h.extra, Dict.ofList, Dict.ofList, Dict.insertAll, Dict.insertAll,
      List.foldl_append]
    rfl

theorem read (h : d.Reads members) {m : String × Json}
    (hread : d.read m.1 (ofJson m.2) = .ok d') : d'.Reads (members ++ [m]) := by
  unfold Draft.read at hread
  split at hread
  · next f hname =>
    split at hread
    · cases hread
    · next hmet =>
      obtain ⟨r, hr, hread⟩ := bind_eq_ok_iff.mp hread
      cases hread
      exact h.read_field hname hmet hr
  · next hname =>
    rw [value_ofJson] at hread
    cases hread
    exact h.read_extra hname m.2

end Draft.Reads

theorem exists_reads_of_decode {r : Record} {members : List (String × Json)}
    (h : decode (ofJson (.obj members)) = .ok r) :
    ∃ d : Draft, d.record = r ∧ d.Reads members := by
  obtain ⟨d, hd, h⟩ := bind_eq_ok_iff.mp h
  cases h
  rw [foldMembers_ofJson] at hd
  exact ⟨d, rfl, foldlM_invariant_done (P := fun done d => d.Reads done) hd Draft.Reads.start
    fun _ _ _ _ _ _ hprev hread => hprev.read hread⟩

/-! ### Decoding an encoding

The members of an encoding are the fields and the extra fields, each under a name of its own. The
invariant says that all of them are in the draft once all were read, in whatever order; and a record
is determined by its fields and its extra fields. -/

def ExtraApart (r : Record) : Prop :=
  ∀ name v, r.extra.find? name = some v → Field.ofName? name = none

theorem mem_members_iff {r : Record} {name : String} {x : Json} : (name, x) ∈ r.members ↔
    (∃ f : Field, name = f.name ∧ x = r.fieldJson f) ∨
      ∃ v, r.extra.find? name = some v ∧ x = v.tree := by
  rw [members, List.mem_append, Dict.mem_entries_iff, Dict.find?_map, Option.map_eq_some_iff]
  simp only [List.mem_map, Prod.mk.injEq, Field.mem_all, true_and, eq_comm]

section

variable {r : Record}

/-- Members under the name of a field belong to the field. -/
theorem eq_fieldJson_of_mem (h : r.ExtraApart) {name : String} {x : Json} {f : Field}
    (hm : (name, x) ∈ r.members) (hf : Field.ofName? name = some f) :
    name = f.name ∧ x = r.fieldJson f := by
  obtain ⟨g, rfl, rfl⟩ | ⟨v, hv, -⟩ := mem_members_iff.mp hm
  · rw [g.ofName?_name] at hf
    cases hf
    exact ⟨rfl, rfl⟩
  · rw [h name v hv] at hf
    cases hf

theorem nodup_names (h : r.ExtraApart) : (r.members.map Prod.fst).Nodup := by
  rw [members, List.map_append, List.map_map, List.nodup_append]
  refine ⟨(by decide : (Field.all.map Field.name).Nodup), ?_, ?_⟩
  · exact (r.extra.map Value.tree).keys_ascending.imp fun hlt heq => by simp [heq] at hlt
  · rintro _ hfield name hextra rfl
    obtain ⟨f, -, rfl⟩ := List.mem_map.mp hfield
    obtain ⟨x, hx⟩ := Dict.mem_keys_iff.mp hextra
    rw [Dict.find?_map, Option.map_eq_some_iff] at hx
    obtain ⟨v, hv, -⟩ := hx
    have hnone := h _ v hv
    rw [Function.comp, f.ofName?_name] at hnone
    cases hnone

/-- Whoever has read all members of an encoding in some order has the record. Every field was met,
so no default is left. -/
theorem Draft.Reads.record_eq {d : Draft} {members : List (String × Json)} (hd : d.Reads members)
    (h : r.ExtraApart) (hmembers : members.Perm r.members) : d.record = r := by
  have hnames : (members.map Prod.fst).Nodup :=
    (hmembers.map Prod.fst).nodup_iff.mpr (nodup_names h)
  -- a record is told by its fields and by its extra fields
  apply ext_fieldJson
  · intro f
    have hmem : (f, r.fieldJson f) ∈ fieldMembers members := by
      refine mem_fieldMembers_iff.mpr ⟨f.name, hmembers.mem_iff.mpr ?_, f.ofName?_name⟩
      exact mem_members_iff.mpr (.inl ⟨f, rfl, rfl⟩)
    rw [hd.field _ hmem, kept_fieldJson]
  · apply Dict.ext_find?
    intro name
    ext v
    rw [hd.extra, Dict.find?_ofList_eq_some_iff (nodup_extraMembers hnames), mem_extraMembers_iff]
    constructor
    · rintro ⟨hname, x, hx, rfl⟩
      obtain ⟨f, rfl, -⟩ | ⟨v, hv, rfl⟩ := mem_members_iff.mp (hmembers.mem_iff.mp hx)
      · rw [f.ofName?_name] at hname
        cases hname
      · rw [Value.ofJson_tree]
        exact hv
    · intro hv
      refine ⟨h name v hv, v.tree, hmembers.mem_iff.mpr ?_, v.ofJson_tree.symm⟩
      exact mem_members_iff.mpr (.inr ⟨v, hv, rfl⟩)

/-- A record whose extra fields keep apart from the declared ones is decoded from the members of its
encoding, in whatever order they stand. -/
theorem decode_of_perm (h : r.ExtraApart) {members : List (String × Json)}
    (hmembers : members.Perm r.members) : decode (ofJson (.obj members)) = .ok r := by
  have hnames : (members.map Prod.fst).Nodup :=
    (hmembers.map Prod.fst).nodup_iff.mpr (nodup_names h)
  -- each member finds a draft to be read into: names stand once, and a field is written as it is
  -- read
  have hstep : ∀ done m rest (d : Draft), members = done ++ m :: rest → d.Reads done →
      ∃ d', d.read m.1 (ofJson m.2) = .ok d' ∧ d'.Reads (done ++ [m]) := by
    intro done m rest d hsplit hd
    rw [hsplit] at hnames hmembers
    have hread : ∃ d', d.read m.1 (ofJson m.2) = .ok d' := by
      obtain ⟨name, x⟩ := m
      cases hname : Field.ofName? name with
      | none => exact ⟨_, by rw [Draft.read, hname, value_ofJson]; rfl⟩
      | some f =>
        have hm : (name, x) ∈ done ++ (name, x) :: rest :=
          List.mem_append_right _ List.mem_cons_self
        obtain ⟨rfl, rfl⟩ := eq_fieldJson_of_mem h (hmembers.mem_iff.mp hm) hname
        have hmet : f ∉ d.met := by
          rw [hd.mem_met_iff]
          rintro ⟨⟨name, x⟩, hm, hf⟩
          -- the name of the field would stand twice in the encoding
          obtain ⟨rfl, -⟩ := eq_fieldJson_of_mem h
            (hmembers.mem_iff.mp (List.mem_append_left _ hm)) hf
          exact fst_not_mem_of_nodup hnames (List.mem_map.mpr ⟨_, hm, rfl⟩)
        refine ⟨⟨d.record.withField r f, f :: d.met⟩, ?_⟩
        simp only [Draft.read, hname, hmet, if_false, readField_fieldJson]
        rfl
    obtain ⟨d', hd'⟩ := hread
    exact ⟨d', hd', hd.read hd'⟩
  obtain ⟨d, hfold, hd⟩ := exists_foldlM_eq_ok Draft.Reads.start hstep
  rw [decode, foldMembers_ofJson, hfold]
  exact congrArg Except.ok (hd.record_eq h hmembers)

/-- A record whose extra fields keep apart from the declared ones is decoded from its encoding. -/
theorem decode_toJson (h : r.ExtraApart) : decode (ofJson r.toJson) = .ok r :=
  decode_of_perm h (.refl _)

end

/-! ### What a decoded record holds

The way back starts from any source that was accepted, not only from encodings. What is known of the
record then is where its values are from. That is enough to see that its extra fields keep apart
from the declared names, and to bound the depth of its values. -/

theorem readField_extra {r r' : Record} {f : Field} {s : Source} (h : r.readField f s = .ok r') :
    r'.extra = r.extra := by
  cases f with
  | moduleCode | yearOfStudy | sectionLabel | creditRule | notes | description | assessment
  | credits | period | subSlot | moduleRules | prerequisiteCodes | tableInfo | contentSections =>
    obtain ⟨x, -, h⟩ := bind_eq_ok_iff.mp h
    cases h
    rfl

theorem readField_moduleRules {r r' : Record} {f : Field} {s : Source}
    (h : r.readField f s = .ok r') :
    r'.moduleRules = r.moduleRules ∨ s.value = .ok r'.moduleRules := by
  cases f with
  | moduleRules =>
    obtain ⟨v, hv, h⟩ := bind_eq_ok_iff.mp h
    cases h
    exact .inr hv
  | moduleCode | yearOfStudy | sectionLabel | creditRule | notes | description | assessment
  | credits | period | subSlot | prerequisiteCodes | tableInfo | contentSections =>
    obtain ⟨x, -, h⟩ := bind_eq_ok_iff.mp h
    cases h
    exact .inl rfl

/-- The values of a record that may be trees of any shape are those of members: each extra one has
the name of its member, which is none of the declared names. The rules may also be the default. -/
structure TakenFrom (r : Record) (members : List (String × Source)) : Prop where
  extra : ∀ name v, r.extra.find? name = some v →
    Field.ofName? name = none ∧ ∃ s, (name, s) ∈ members ∧ s.value = .ok v
  moduleRules : r.moduleRules = .text "" ∨ ∃ m ∈ members, m.2.value = .ok r.moduleRules

theorem TakenFrom.extraApart {r : Record} {members : List (String × Source)}
    (h : r.TakenFrom members) : r.ExtraApart :=
  fun name v hv => (h.extra name v hv).1

theorem TakenFrom.read {d d' : Draft} {members : List (String × Source)}
    (h : d.record.TakenFrom members) {m : String × Source} (hm : m ∈ members)
    (hread : d.read m.1 m.2 = .ok d') : d'.record.TakenFrom members := by
  unfold Draft.read at hread
  split at hread
  · -- a declared field: the rules may come from this member, the extra fields stay
    next f _ =>
    split at hread
    · cases hread
    · obtain ⟨r', hr', hread⟩ := bind_eq_ok_iff.mp hread
      cases hread
      refine ⟨fun name v hv => h.extra name v (readField_extra hr' ▸ hv), ?_⟩
      rcases readField_moduleRules hr' with heq | hvalue
      · exact heq ▸ h.moduleRules
      · exact .inr ⟨m, hm, hvalue⟩
  · -- an extra field, which replaces an earlier one of its name
    next hname =>
    obtain ⟨v, hv, hread⟩ := bind_eq_ok_iff.mp hread
    cases hread
    refine ⟨fun name w hw => ?_, h.moduleRules⟩
    rw [Dict.find?_insert] at hw
    split at hw
    · next heq =>
      obtain rfl := Std.LawfulEqOrd.eq_of_compare heq
      cases hw
      exact ⟨hname, m.2, hm, hv⟩
    · exact h.extra name w hw

/-- A record is taken from the members of the object that it is decoded from. Nothing is asked of
the object, which may repeat names or hold faults where nothing was read. -/
theorem takenFrom_of_decode {s : Source} {r : Record} (h : decode s = .ok r) :
    ∃ members, s = .obj (named members) .closed ∧ r.TakenFrom members := by
  obtain ⟨d, hd, h⟩ := bind_eq_ok_iff.mp h
  cases h
  obtain ⟨members, rfl, hfold⟩ := foldMembers_eq_ok_iff.mp hd
  refine ⟨members, rfl, ?_⟩
  have hstart : Draft.start.record.TakenFrom members := by
    refine ⟨fun name v hv => ?_, .inl rfl⟩
    cases hv
  exact foldlM_invariant (P := fun d => d.record.TakenFrom members) hfold hstart
    fun d m hm d' hd hread => hd.read hm hread

end Record

end Prospectus
