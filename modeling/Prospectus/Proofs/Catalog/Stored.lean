import Prospectus.Proofs.Json.Numbers
import Prospectus.Proofs.Record.Depth
import Prospectus.Store.Documents

/-! # Stored catalogues

When the text of a catalogue gives the catalogue back. The modules of a catalogue that was made from
snapshots have records that fit and keep apart from the declared names; of the text of such a
catalogue, each module comes back exactly if it is `MergedModule.Storable`
(`Catalog.decodeText_documentText_iff`).

A catalogue puts three fields beside each record, in the same object. An extra field of the record
that has one of their names is then written twice, and a reader refuses the second one: here a
catalogue is stricter than the snapshot that the record came from. Rules by year stand one level
deeper than the rules of a record, so they may be too deep where the same rules were not. These are
the two conditions of `Storable`, and there are no others. -/

namespace Prospectus

open Json Json.Source

namespace MergedModule

/-- The two things that the text of a module has no place for: an extra field under the name of one
of the fields beside the record, and rules of a year that leave no room for the level that they
stand below those of a record. -/
structure Storable (m : MergedModule) : Prop where
  ownNames : ∀ name ∈ ownNames, m.record.extra.find? name = none
  rulesByYear : ∀ rules ∈ m.rulesByYear, ∀ v ∈ rules.values, v.tree.height < recordRoom

/-- Where it stands in a catalogue, a module with a proper record is read back if it is storable and
not otherwise. In the one direction the members are those of the encoding; in the other one, a name
that stands twice is refused, and rules that are too deep are unreadable. -/
theorem decode_within_iff {m : MergedModule} (hapart : m.record.ExtraApart)
    (hfits : m.record.Fits) :
    decode (m.toJson.within (recordRoom + 1)) = .ok m ↔ m.Storable := by
  constructor
  · intro h
    obtain ⟨j, hj⟩ := readsAll_decode _ m h
    have hheight : m.toJson.height ≤ recordRoom + 1 := height_le_of_toJson_within hj
    exact ⟨ownNames_of_decode h, (height_toJson_le_iff hfits).mp hheight⟩
  · rintro ⟨hown, hrules⟩
    have hheight : m.toJson.height ≤ recordRoom + 1 := (height_toJson_le_iff hfits).mpr hrules
    rw [within_eq_ofJson hheight]
    exact decode_toJson hapart hown

end MergedModule

namespace Catalog

/-- The four members of a catalogue are read in the order in which they are written. -/
theorem decode_members (form : Form) (course school : String) (years modules : Source) :
    decode form (.obj [(some "course", .str course), (some "school", .str school),
      (some "academic_years", years), (some "modules", modules)] .closed) = (do
        let academicYears ← years.list AcademicYear.decode
        let modules ← modules.list MergedModule.decode
        return ⟨course, school, academicYears, modules⟩) := by
  cases hyears : years.list AcademicYear.decode with
  | error e =>
    simp [decode, foldMembers, Draft.read, once, hyears, bind, Except.bind, pure, Except.pure,
      Except.map, Source.text]
  | ok ys =>
    cases hmodules : modules.list MergedModule.decode with
    | error e =>
      simp [decode, foldMembers, Draft.read, once, hyears, hmodules, bind, Except.bind, pure,
        Except.pure, Except.map, Source.text]
    | ok ms =>
      simp [decode, foldMembers, Draft.read, once, hyears, hmodules, bind, Except.bind, pure,
        Except.pure, Except.map, Source.text, required, DecodeError.ofFault, Ending.read]

/-- The source of a catalogue has its four members in the order in which they are written. -/
theorem toJson_within (c : Catalog) : c.toJson.within maxDepth =
    .obj [(some "course", .str c.course), (some "school", .str c.school),
      (some "academic_years", (Json.arr (c.academicYears.map AcademicYear.toJson)).within
        (recordRoom + 2)),
      (some "modules", (Json.arr (c.modules.map MergedModule.toJson)).within (recordRoom + 2))]
      .closed :=
  rfl

/-- In the room of a document a catalogue is read back exactly if each of its modules is. -/
theorem decode_within_iff (form : Form) (c : Catalog) :
    decode form (c.toJson.within maxDepth) = .ok c ↔
      ∀ m ∈ c.modules, MergedModule.decode (m.toJson.within (recordRoom + 1)) = .ok m := by
  have hyears : ((Json.arr (c.academicYears.map AcademicYear.toJson)).within (recordRoom + 2)).list
      AcademicYear.decode = .ok c.academicYears := by
    rw [list_within, List.mapM_map]
    exact mapM_eq_ok_iff.mpr (List.forall₂_same.mpr fun _ _ => rfl)
  have hmodules : c.modules.mapM (fun m => MergedModule.decode (m.toJson.within (recordRoom + 1))) =
      .ok c.modules ↔
        ∀ m ∈ c.modules, MergedModule.decode (m.toJson.within (recordRoom + 1)) = .ok m := by
    rw [mapM_eq_ok_iff, List.forall₂_same]
  -- texts and years come back in any case, so all depends on the list of modules
  rw [toJson_within, decode_members, hyears, list_within, List.mapM_map, ← hmodules]
  -- reading goes through the years first and then through the modules
  constructor
  · intro h
    obtain ⟨years, hlist, h⟩ := bind_eq_ok_iff.mp h
    cases hlist
    obtain ⟨modules, hlist, h⟩ := bind_eq_ok_iff.mp h
    have hsame : modules = c.modules := congrArg Catalog.modules (Except.ok.inj h)
    exact hsame ▸ hlist
  · intro h
    refine bind_eq_ok_iff.mpr ⟨c.academicYears, rfl, ?_⟩
    exact bind_eq_ok_iff.mpr ⟨c.modules, h, rfl⟩

/-- If the doubles in it read back, the text of a catalogue with proper records is decoded as the
catalogue exactly if all its modules are storable. -/
theorem decodeText_documentText_iff {c : Catalog}
    (hreals : ∀ x, Number.real x ∈ c.toJson.numbers → (Number.real x).ReadsBack)
    (hrecords : ∀ m ∈ c.modules, m.record.ExtraApart ∧ m.record.Fits) :
    decodeText (decode .text) (Store.documentText c.toJson) = .ok c ↔
      ∀ m ∈ c.modules, m.Storable := by
  rw [Store.documentText, decodeText_indented (readsBack_of_reals hreals), decode_within_iff]
  refine forall₂_congr fun m hm => ?_
  obtain ⟨hapart, hfits⟩ := hrecords m hm
  exact MergedModule.decode_within_iff hapart hfits

/-! ### Catalogues read as snapshots

The two kinds of document share most of their members, and snapshots are found by name. What keeps
a catalogue from being taken for a snapshot is the one member that it lacks. -/

/-- A catalogue has no academic year of its own, so it is read as no snapshot. -/
theorem exists_error_of_snapshot (form : Form) (c : Catalog) :
    ∃ e, Snapshot.decode form (c.toJson.within maxDepth) = .error e := by
  have hskip := skip_within (Json.arr (c.academicYears.map AcademicYear.toJson)) (recordRoom + 2)
  rw [toJson_within]
  generalize (Json.arr (c.academicYears.map AcademicYear.toJson)).within (recordRoom + 2) = years
    at hskip ⊢
  generalize (Json.arr (c.modules.map MergedModule.toJson)).within (recordRoom + 2) = modules
  -- the records of a snapshot are looked for among the modules, and no member has its label
  cases hmodules : modules.list Record.decode with
  | error e =>
    refine ⟨e, ?_⟩
    simp [Snapshot.decode, foldMembers, Snapshot.Draft.read, once, hmodules, bind, Except.bind,
      pure, Except.pure, Except.map, Source.textOrNull, Source.text, ignore, hskip,
      DecodeError.ofFault]
  | ok records =>
    refine ⟨.missingField "academic_year", ?_⟩
    simp [Snapshot.decode, foldMembers, Snapshot.Draft.read, once, hmodules, bind, Except.bind,
      pure, Except.pure, Except.map, Source.textOrNull, Source.text, ignore, hskip,
      DecodeError.ofFault, Ending.read, required]

/-- Neither is the text of a catalogue read as a snapshot. -/
theorem exists_error_of_documentText {c : Catalog}
    (hreals : ∀ x, Number.real x ∈ c.toJson.numbers → (Number.real x).ReadsBack) :
    ∃ e, decodeText (Snapshot.decode .text) (Store.documentText c.toJson) = .error e := by
  rw [Store.documentText, decodeText_indented (readsBack_of_reals hreals)]
  exact exists_error_of_snapshot .text c

end Catalog

end Prospectus
