import Prospectus.Proofs.Record.Merged

/-!
# Nothing is lost between objects and records

What is decoded from an object is written again with every member of the object, known or unknown:
only `year_of_study` is written as `year`, and null as the empty text in a field that holds a text.
Fields that the object does not have are written with their defaults, and nothing else is written
(`Record.perm_completed_of_decode`). Together with the way back, for records and for merged modules,
this is `codec_lossless`.
-/

namespace Prospectus

open Json Json.Source

theorem Dict.entries_ofList_perm {α : Type _} {es : List (String × α)}
    (h : (es.map Prod.fst).Nodup) : (ofList es).entries.Perm es := by
  have hentries : (ofList es).entries.Nodup :=
    (ofList es).ascending.imp fun hlt heq => by simp [heq] at hlt
  rw [List.perm_ext_iff_of_nodup hentries h.of_map]
  rintro ⟨name, x⟩
  rw [mem_entries_iff, find?_ofList_eq_some_iff h]

namespace Record

/-! ### How members are written again

The members that an object loses and gains on its way through a record, described without a decoder:
a renaming, a replacement of null, and the defaults of what is missing. That it is a permutation of
what the record is written with follows from the two groups of members, which are counted
separately. -/

/-- The names under which fields are read. -/
def readNames : List String := "year_of_study" :: Field.all.map Field.name

/-- The names under which a text is read. -/
def textNames : List String :=
  ["module_code", "year", "year_of_study", "section", "credit_rule", "notes", "description",
    "assessment", "credits", "period", "sub_slot", "table_info"]

def writtenName (name : String) : String := if name = "year_of_study" then "year" else name

/-- The normal form of a value says the same. Null under the name of a text is written as the empty
text. -/
def writtenValue (name : String) (x : Json) : Json :=
  if name ∈ textNames ∧ x = .null then .str "" else x.normalize

/-- A member that was read, as it is written again. -/
def rewritten (m : String × Json) : String × Json := (writtenName m.1, writtenValue m.1 m.2)

/-- What is written of an object that was read as a record: its own members, and the defaults of the
fields that it does not have. The order is not the one in which they are written. -/
def completed (members : List (String × Json)) : List (String × Json) :=
  members.map rewritten ++
    (blank "" "").members.filter fun m => m.1 ∉ (members.map rewritten).map Prod.fst

section

variable {name : String} {f : Field} {members : List (String × Json)}

theorem mem_readNames_iff : name ∈ readNames ↔ ∃ f, Field.ofName? name = some f := by
  rw [readNames, List.mem_cons, List.mem_map]
  constructor
  · rintro (rfl | ⟨f, -, rfl⟩)
    · exact ⟨.yearOfStudy, Field.ofName?_eq_some_iff.mpr (.inr ⟨rfl, rfl⟩)⟩
    · exact ⟨f, f.ofName?_name⟩
  · rintro ⟨f, h⟩
    obtain rfl | ⟨-, rfl⟩ := Field.ofName?_eq_some_iff.mp h
    · exact .inr ⟨f, f.mem_all, rfl⟩
    · exact .inl rfl

theorem ofName?_eq_none_iff : Field.ofName? name = none ↔ name ∉ readNames := by
  rw [mem_readNames_iff, not_exists, Option.eq_none_iff_forall_ne_some]

theorem rewritten_of_field (h : Field.ofName? name = some f) (x : Json) :
    rewritten (name, x) = (f.name, f.kept x) := by
  obtain rfl | ⟨rfl, rfl⟩ := Field.ofName?_eq_some_iff.mp h
  · cases f <;>
      simp [rewritten, writtenName, writtenValue, textNames, Field.kept, Field.isText, Field.name]
  · simp [rewritten, writtenName, writtenValue, textNames, Field.kept, Field.isText, Field.name]

theorem rewritten_of_extra (h : Field.ofName? name = none) (x : Json) :
    rewritten (name, x) = (name, x.normalize) := by
  have hread : name ∉ readNames := ofName?_eq_none_iff.mp h
  have halias : name ≠ "year_of_study" := fun heq => hread (heq ▸ List.mem_cons_self)
  have htext : name ∉ textNames := by
    have hall : ∀ text ∈ textNames, text ∈ readNames := by decide
    exact fun hname => hread (hall name hname)
  rw [rewritten, writtenName, writtenValue, if_neg halias, if_neg fun hboth => htext hboth.1]

/-- The name of a field is written again for the members that it was read from. -/
theorem name_mem_rewritten_iff : f.name ∈ (members.map rewritten).map Prod.fst ↔
    ∃ m ∈ members, Field.ofName? m.1 = some f := by
  rw [List.map_map, List.mem_map]
  refine exists_congr fun m => and_congr_right fun _ => ?_
  obtain ⟨name, x⟩ := m
  show (rewritten (name, x)).1 = f.name ↔ Field.ofName? name = some f
  -- an extra field keeps its name, which is none of a field
  cases hname : Field.ofName? name with
  | none =>
    rw [rewritten_of_extra hname]
    constructor
    · rintro rfl
      rw [f.ofName?_name] at hname
      cases hname
    · intro h
      cases h
  | some g =>
    rw [rewritten_of_field hname, Option.some.injEq]
    exact ⟨Field.name_injective, congrArg Field.name⟩

/-- Members are written again as fields or as extra fields. Each member belongs to one of the two
groups, so the two lists together are the members in another order. -/
theorem map_rewritten_perm (members : List (String × Json)) : (members.map rewritten).Perm
    ((fieldMembers members).map (fun e => (e.1.name, e.1.kept e.2)) ++
      (extraMembers members).map fun m => (m.1, m.2.tree)) := by
  induction members with
  | nil => exact .refl _
  | cons m members ih =>
    obtain ⟨name, x⟩ := m
    rw [← List.singleton_append, fieldMembers_append, extraMembers_append]
    -- an extra field goes behind all fields, a field in front of the extra ones
    cases hname : Field.ofName? name with
    | none =>
      rw [fieldMembers_of_extra hname, extraMembers_of_extra hname]
      show (rewritten (name, x) :: members.map rewritten).Perm _
      rw [rewritten_of_extra hname]
      exact (ih.cons _).trans List.perm_middle.symm
    | some f =>
      rw [fieldMembers_of_field hname, extraMembers_of_field hname]
      show (rewritten (name, x) :: members.map rewritten).Perm _
      rw [rewritten_of_field hname]
      exact ih.cons _

end

namespace Draft.Reads

variable {d : Draft} {members : List (String × Json)}

theorem all_perm (h : d.Reads members) :
    Field.all.Perm (d.met ++ Field.all.filter fun f => f ∉ d.met) := by
  have hall : Field.all.Nodup := by decide
  have hdisjoint : d.met.Disjoint (Field.all.filter fun f => f ∉ d.met) := by
    intro f hmet hf
    exact of_decide_eq_true (List.mem_filter.mp hf).2 hmet
  rw [List.perm_ext_iff_of_nodup hall (h.nodup.append (hall.filter _) hdisjoint)]
  intro f
  rw [List.mem_append, List.mem_filter, decide_eq_true_eq]
  simp only [Field.mem_all, true_and, true_iff]
  exact em _

/-- The fields that were met are written as they were read. -/
theorem met_perm (h : d.Reads members) : (d.met.map fun f => (f.name, d.record.fieldJson f)).Perm
    ((fieldMembers members).map fun e => (e.1.name, e.1.kept e.2)) := by
  have hfields : ((fieldMembers members).map Prod.fst).map
      (fun f => (f.name, d.record.fieldJson f)) =
        (fieldMembers members).map fun e => (e.1.name, e.1.kept e.2) := by
    rw [List.map_map]
    exact List.map_congr_left fun e he => congrArg (Prod.mk e.1.name) (h.field e he)
  rw [← hfields, h.met]
  exact (List.reverse_perm _).map _

/-- The other fields are written with their defaults. -/
theorem map_unmet (h : d.Reads members) : ((Field.all.filter fun f => f ∉ d.met).map
    fun f => (f.name, d.record.fieldJson f)) =
      (blank "" "").members.filter fun m => m.1 ∉ (members.map rewritten).map Prod.fst := by
  have hdefaults : (blank "" "").members =
      Field.all.map fun f => (f.name, (blank "" "").fieldJson f) := rfl
  rw [hdefaults, List.filter_map]
  have hfilter : Field.all.filter (fun f => f ∉ d.met) = Field.all.filter
      ((fun m => decide (m.1 ∉ (members.map rewritten).map Prod.fst)) ∘
        fun f => (f.name, (blank "" "").fieldJson f)) := by
    refine List.filter_congr fun f _ => ?_
    show decide (f ∉ d.met) = decide (f.name ∉ (members.map rewritten).map Prod.fst)
    rw [decide_eq_decide, name_mem_rewritten_iff, h.mem_met_iff]
  rw [← hfilter]
  refine List.map_congr_left fun f hf => ?_
  rw [h.default f (of_decide_eq_true (List.mem_filter.mp hf).2)]

theorem extra_perm (h : d.Reads members) (hnames : (members.map Prod.fst).Nodup) :
    (d.record.extra.map Value.tree).entries.Perm
      ((extraMembers members).map fun m => (m.1, m.2.tree)) := by
  show (d.record.extra.entries.map fun m => (m.1, m.2.tree)).Perm _
  rw [h.extra]
  exact (Dict.entries_ofList_perm (nodup_extraMembers hnames)).map _

end Draft.Reads

/-- A record is written with the members of the object that it was decoded from, and with the
defaults of the fields that were missing. -/
theorem perm_completed_of_decode {r : Record} {members : List (String × Json)}
    (hnames : (members.map Prod.fst).Nodup) (h : decode (ofJson (.obj members)) = .ok r) :
    r.members.Perm (completed members) := by
  obtain ⟨d, rfl, hd⟩ := exists_reads_of_decode h
  have hfields := hd.all_perm.map fun f => (f.name, d.record.fieldJson f)
  rw [List.map_append, hd.map_unmet] at hfields
  rw [Record.members, completed]
  refine ((hfields.trans (hd.met_perm.append_right _)).append (hd.extra_perm hnames)).trans ?_
  refine .trans ?_ ((map_rewritten_perm members).symm.append_right _)
  rw [List.append_assoc, List.append_assoc]
  exact List.perm_append_comm.append_left _

/-- The defaults of the fields. -/
example : (blank "" "").members =
    [("module_code", .str ""), ("year", .str ""), ("section", .str ""), ("credit_rule", .str ""),
      ("notes", .str ""), ("description", .str ""), ("assessment", .str ""), ("credits", .str ""),
      ("period", .str ""), ("sub_slot", .str ""), ("module_rules", .str ""),
      ("prerequisite_codes", .arr []), ("table_info", .str ""), ("content_sections", .obj [])] :=
  rfl

end Record

/-- Decoding an encoded record gives it back, in whatever order the members stand, and so for a
merged module. A record that was decoded from an object is written with all of the object, and with
the defaults of the fields that were missing. -/
theorem codec_lossless :
    (∀ r : Record, (∀ name ∈ Record.readNames, r.extra.find? name = none) →
      ∀ members listed, r.toJson = .obj members → listed.Perm members →
        Record.decode (ofJson (.obj listed)) = .ok r) ∧
    (∀ m : MergedModule,
      (∀ name ∈ Record.readNames ++ MergedModule.ownNames, m.record.extra.find? name = none) →
      ∀ members listed, m.toJson = .obj members → listed.Perm members →
        MergedModule.decode (ofJson (.obj listed)) = .ok m) ∧
    ∀ (r : Record) members, (members.map Prod.fst).Nodup →
      Record.decode (ofJson (.obj members)) = .ok r →
      ∃ written, r.toJson = .obj written ∧ written.Perm (Record.completed members) := by
  have hapart (r : Record) (h : ∀ name ∈ Record.readNames, r.extra.find? name = none) :
      r.ExtraApart := by
    intro name v hv
    rw [Record.ofName?_eq_none_iff]
    intro hname
    rw [h name hname] at hv
    cases hv
  -- records, merged modules, and what is written of a record that was read
  refine ⟨fun r h members listed hr hlisted => ?_, fun m h members listed hm hlisted => ?_,
    fun r members hnames h => ⟨r.members, rfl, Record.perm_completed_of_decode hnames h⟩⟩
  · cases hr
    exact Record.decode_of_perm (hapart r h) hlisted
  · cases hm
    have hread := fun name hname => h name (List.mem_append_left _ hname)
    have hown := fun name hname => h name (List.mem_append_right _ hname)
    exact MergedModule.decode_of_perm (hapart m.record hread) hown hlisted

/-- A record whose rules are null, with an extra field. -/
def linked : Record :=
  { Record.blank "MTHA4003B" "Year 1U" with
    moduleRules := .ofJson .null
    extra := .ofList [("url", .text "https://example.invalid/m")] }

/-- A merged module whose rules by year are there, but empty. -/
def unruled : MergedModule where
  record := linked
  availableYears := [⟨"2025/6"⟩]
  rulesByYear := some ∅

/-- An object with the other name of a field, a text that is null, and an unknown member. -/
def aliased : List (String × Json) :=
  [("url", .str "https://example.invalid/m"), ("notes", .null), ("year_of_study", .str "Year 3U")]

def readAliased : Record :=
  { Record.blank "" "Year 3U" with extra := .ofList [("url", .text "https://example.invalid/m")] }

theorem codec_lossless_aliased :
    Record.decode (ofJson linked.toJson) = .ok linked ∧
      MergedModule.decode (ofJson unruled.toJson) = .ok unruled ∧
      Record.decode (ofJson (.obj aliased)) = .ok readAliased ∧
      ∃ written, readAliased.toJson = .obj written ∧
        ("url", .str "https://example.invalid/m") ∈ written ∧ ("notes", .str "") ∈ written ∧
        ("year", .str "Year 3U") ∈ written ∧ ("module_rules", .str "") ∈ written := by
  have hlinked := codec_lossless.1 linked (by decide) _ _ rfl (.refl _)
  have hunruled := codec_lossless.2.1 unruled (by decide) _ _ rfl (.refl _)
  have hread : Record.decode (ofJson (.obj aliased)) = .ok readAliased := by decide +kernel
  obtain ⟨written, hwritten, hperm⟩ := codec_lossless.2.2 readAliased aliased (by decide) hread
  refine ⟨hlinked, hunruled, hread, written, hwritten, ?_⟩
  simp only [hperm.mem_iff]
  decide +kernel

end Prospectus
