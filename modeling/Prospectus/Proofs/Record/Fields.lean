import Prospectus.Proofs.Json.Decoders
import Prospectus.Record.Codec

/-!
# Fields of records

What reading one field takes from its member: the value as it stands, only that null counts as the
empty text in the fields that hold a text (`Record.readField_ofJson`). What the encoding says about
a field is read back (`Record.readField_fieldJson`), and a record is determined by it and the extra
fields (`Record.ext_fieldJson`).
-/

namespace Prospectus

open Json Json.Source

namespace Record

namespace Field

@[simp] theorem ofName?_name (f : Field) : ofName? f.name = some f := by
  cases f <;> decide

theorem name_injective {f g : Field} (h : f.name = g.name) : f = g := by
  have hfind := f.ofName?_name
  rw [h, ofName?_name] at hfind
  exact (Option.some.inj hfind).symm

@[simp] theorem mem_all (f : Field) : f ∈ all := by
  cases f <;> decide

theorem alias?_eq_some_iff {f : Field} {name : String} :
    f.alias? = some name ↔ f = yearOfStudy ∧ name = "year_of_study" := by
  cases f <;> simp [alias?, eq_comm]

theorem ofName?_eq_some_iff {name : String} {f : Field} : ofName? name = some f ↔
    name = f.name ∨ f = yearOfStudy ∧ name = "year_of_study" := by
  rw [← alias?_eq_some_iff]
  constructor
  · intro h
    have hfound := List.find?_some h
    simp only [Bool.or_eq_true, beq_iff_eq] at hfound
    exact hfound.imp_left Eq.symm
  · rintro (rfl | h)
    · exact f.ofName?_name
    · obtain ⟨rfl, rfl⟩ := alias?_eq_some_iff.mp h
      decide

/-- The fields that hold a text. Null counts as the empty one. -/
def isText : Field → Bool
  | moduleRules | prerequisiteCodes | contentSections => false
  | moduleCode | yearOfStudy | sectionLabel | creditRule | notes | description | assessment
  | credits | period | subSlot | tableInfo => true

/-- What an encoding says about a field that was read from `x`. -/
def kept (f : Field) (x : Json) : Json := if f.isText ∧ x = .null then .str "" else x.normalize

end Field

/-! ### One field of a record

A family of statements on fourteen fields. Each goes by cases on the field and is about one reader
and one encoder for texts, lists and dictionaries, so the case split is all there is to most proofs.
-/

/-- A record with one field taken from another. -/
def withField (r other : Record) : Field → Record
  | .moduleCode => { r with moduleCode := other.moduleCode }
  | .yearOfStudy => { r with yearOfStudy := other.yearOfStudy }
  | .sectionLabel => { r with sectionLabel := other.sectionLabel }
  | .creditRule => { r with creditRule := other.creditRule }
  | .notes => { r with notes := other.notes }
  | .description => { r with description := other.description }
  | .assessment => { r with assessment := other.assessment }
  | .credits => { r with credits := other.credits }
  | .period => { r with period := other.period }
  | .subSlot => { r with subSlot := other.subSlot }
  | .moduleRules => { r with moduleRules := other.moduleRules }
  | .prerequisiteCodes => { r with prerequisiteCodes := other.prerequisiteCodes }
  | .tableInfo => { r with tableInfo := other.tableInfo }
  | .contentSections => { r with contentSections := other.contentSections }

theorem list_text_ofStrings (xs : List String) :
    (ofJson (.ofStrings xs)).list Source.text = .ok xs := by
  rw [ofStrings, list_ofJson, List.mapM_map]
  exact mapM_eq_ok_iff.mpr (List.forall₂_same.mpr fun _ _ => rfl)

theorem dict_text_ofDict (d : Dict String String) :
    (ofJson (.obj (d.map Json.str).entries)).dict Source.text = .ok d := by
  rw [Source.dict, foldMembers_ofJson]
  have hfold := foldlM_insert id id Source.text Json.str (fun _ => rfl) (fun _ => rfl) d.entries ∅
  exact hfold.trans (congrArg Except.ok d.ofList_entries)

/-- A declared field is read from what the encoding says about it. -/
theorem readField_fieldJson (r other : Record) (f : Field) :
    r.readField f (ofJson (other.fieldJson f)) = .ok (r.withField other f) := by
  -- texts in the last case, and before it the fields with a reader of their own
  cases f with
  | moduleRules =>
    show (ofJson other.moduleRules.tree).value >>= _ = _
    rw [value_ofJson, Value.ofJson_tree]
    rfl
  | prerequisiteCodes =>
    show (ofJson (.ofStrings other.prerequisiteCodes)).list Source.text >>= _ = _
    rw [list_text_ofStrings]
    rfl
  | contentSections =>
    show (ofJson (.obj (other.contentSections.map Json.str).entries)).dict Source.text >>= _ = _
    rw [dict_text_ofDict]
    rfl
  | moduleCode | yearOfStudy | sectionLabel | creditRule | notes | description | assessment
  | credits | period | subSlot | tableInfo => rfl

@[simp] theorem fieldJson_withField_self (r other : Record) (f : Field) :
    (r.withField other f).fieldJson f = other.fieldJson f := by
  cases f <;> rfl

theorem fieldJson_withField_of_ne {r other : Record} {f g : Field} (h : g ≠ f) :
    (r.withField other f).fieldJson g = r.fieldJson g := by
  cases f <;> cases g <;> first | rfl | exact absurd rfl h

@[simp] theorem extra_withField (r other : Record) (f : Field) :
    (r.withField other f).extra = r.extra := by
  cases f <;> rfl

@[simp] theorem fieldJson_with_extra (r : Record) (extra : Dict String Value) (f : Field) :
    ({ r with extra } : Record).fieldJson f = r.fieldJson f := by
  cases f <;> rfl

/-- A record is determined by what its encoding says about the fields, and by the extra ones. -/
theorem ext_fieldJson {r r' : Record} (hfields : ∀ f, r.fieldJson f = r'.fieldJson f)
    (hextra : r.extra = r'.extra) : r = r' := by
  have hrules : r.moduleRules = r'.moduleRules := by
    rw [← r.moduleRules.ofJson_tree, ← r'.moduleRules.ofJson_tree]
    exact congrArg Value.ofJson (hfields .moduleRules)
  have hcodes : r.prerequisiteCodes = r'.prerequisiteCodes :=
    List.map_injective_iff.mpr (fun _ _ => Json.str.inj) (Json.arr.inj (hfields .prerequisiteCodes))
  -- the sections are compared as they are written, title by title
  have hsections : r.contentSections = r'.contentSections := by
    have hentries : r.contentSections.map Json.str = r'.contentSections.map Json.str :=
      Dict.ext_entries (Json.obj.inj (hfields .contentSections))
    apply Dict.ext_find?
    intro title
    have hfind := congrArg (Dict.find? · title) hentries
    simp only [Dict.find?_map] at hfind
    exact Option.map_injective (fun _ _ => Json.str.inj) hfind
  cases r
  cases r'
  simp only [Record.mk.injEq]
  exact ⟨Json.str.inj (hfields .moduleCode), Json.str.inj (hfields .yearOfStudy),
    Json.str.inj (hfields .sectionLabel), Json.str.inj (hfields .creditRule),
    Json.str.inj (hfields .notes), Json.str.inj (hfields .description),
    Json.str.inj (hfields .assessment), Json.str.inj (hfields .credits),
    Json.str.inj (hfields .period), Json.str.inj (hfields .subSlot), hrules, hcodes,
    Json.str.inj (hfields .tableInfo), hsections, hextra⟩

/-! ### What is read of a member

Reading is lossy in one place: null under the name of a text is the empty text. Everything else is
kept up to the order of members. The lemmas say it for the readers, and then for the fields. -/

theorem eq_str_of_text {x : Json} {t : String} (h : (ofJson x).text = .ok t) : x = .str t := by
  cases x with
  | str s =>
    cases h
    rfl
  | null | bool _ | num _ | arr _ | obj _ => cases h

theorem str_of_textOrNull {x : Json} {t : String} (h : (ofJson x).textOrNull = .ok t) :
    .str t = if x = .null then .str "" else x.normalize := by
  by_cases hx : x = .null
  · rw [if_pos hx]
    rw [hx] at h
    cases h
    rfl
  · have htext : (ofJson x).text = .ok t := by
      cases x with
      | null => exact absurd rfl hx
      | bool _ | num _ | str _ | arr _ | obj _ => exact h
    rw [if_neg hx, eq_str_of_text htext, Json.normalize]

theorem ofStrings_of_list {x : Json} {ts : List String}
    (h : (ofJson x).list Source.text = .ok ts) : .ofStrings ts = x.normalize := by
  cases x with
  | arr items =>
    have hitems : List.Forall₂ (fun x t => (ofJson x).text = .ok t) items ts :=
      mapM_eq_ok_iff.mp (list_ofJson Source.text items ▸ h)
    have hnormal : ts.map Json.str = normalizeItems items := by
      clear h
      induction hitems with
      | nil => rfl
      | @cons x t _ _ hx _ ih =>
        rw [eq_str_of_text hx, List.map_cons, normalizeItems, Json.normalize, ih]
    rw [Json.normalize, ofStrings, hnormal]
  | null | bool _ | num _ | str _ | obj _ => cases h

theorem entries_of_dict {x : Json} {d : Dict String String}
    (h : (ofJson x).dict Source.text = .ok d) : .obj (d.map .str).entries = x.normalize := by
  cases x with
  | obj members =>
    rw [Source.dict, foldMembers_ofJson] at h
    -- the dictionary read so far is that of the members read so far, and a later title replaces
    -- one
    have hfold : ∀ (members : List (String × Json)) (found last : Dict String String),
        members.foldlM (fun found m => return found.insert m.1 (← Source.text (ofJson m.2))) found =
          Except.ok (ε := DecodeError) last →
        last.map Json.str = (found.map .str).insertAll (normalizeMembers members) := by
      intro members
      induction members with
      | nil =>
        intro found last h
        cases h
        rfl
      | cons m members ih =>
        intro found last h
        rw [List.foldlM_cons] at h
        obtain ⟨next, hnext, h⟩ := bind_eq_ok_iff.mp h
        obtain ⟨t, ht, hnext⟩ := bind_eq_ok_iff.mp hnext
        cases hnext
        obtain ⟨name, y⟩ := m
        obtain rfl : y = .str t := eq_str_of_text ht
        rw [ih _ _ h, Dict.map_insert, normalizeMembers, Json.normalize]
        rfl
    rw [Json.normalize, hfold members ∅ d h]
    rfl
  | null | bool _ | num _ | str _ | arr _ => cases h

/-- Reading a declared field changes that field alone, to what was kept of its member. -/
theorem readField_ofJson {r r' : Record} {f : Field} {x : Json}
    (h : r.readField f (ofJson x) = .ok r') :
    r' = r.withField r' f ∧ r'.fieldJson f = f.kept x := by
  -- in each case: nothing but the field has changed, and it holds what the reader keeps of the
  -- value
  cases f with
  | moduleCode | yearOfStudy | sectionLabel | creditRule | notes | description | assessment
  | credits | period | subSlot | tableInfo =>
    obtain ⟨t, ht, h⟩ := bind_eq_ok_iff.mp h
    cases h
    refine ⟨rfl, (str_of_textOrNull ht).trans ?_⟩
    simp [Field.kept, Field.isText]
  | moduleRules =>
    obtain ⟨v, hv, h⟩ := bind_eq_ok_iff.mp h
    cases h
    rw [value_ofJson] at hv
    cases hv
    refine ⟨rfl, ?_⟩
    simp [Field.kept, Field.isText, fieldJson, Value.ofJson]
  | prerequisiteCodes =>
    obtain ⟨ts, hts, h⟩ := bind_eq_ok_iff.mp h
    cases h
    refine ⟨rfl, (ofStrings_of_list hts).trans ?_⟩
    simp [Field.kept, Field.isText]
  | contentSections =>
    obtain ⟨d, hd, h⟩ := bind_eq_ok_iff.mp h
    cases h
    refine ⟨rfl, (entries_of_dict hd).trans ?_⟩
    simp [Field.kept, Field.isText]

/-- What an encoding says about a field is kept as it is. -/
theorem kept_fieldJson (r : Record) (f : Field) : f.kept (r.fieldJson f) = r.fieldJson f := by
  have h := (readField_ofJson (readField_fieldJson r r f)).2
  rwa [fieldJson_withField_self, eq_comm] at h

end Record

end Prospectus
