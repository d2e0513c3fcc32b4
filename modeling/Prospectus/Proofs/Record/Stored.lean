import Prospectus.Proofs.Json.Numbers
import Prospectus.Proofs.Record.Depth
import Prospectus.Store.Documents

/-! # Stored snapshots

The text of a snapshot gives the snapshot back if its records fit and keep apart from the declared
names (`Snapshot.decodeText_documentText`), as all records do that were read from a text.

So a snapshot that was read can be written and read again, any number of times. For one that was
put together in some other way, the two conditions are to be checked for each record. The time of
the capture is written only if there is one, and reading gives none where it is not written. -/

namespace Prospectus

open Json Json.Source

/-- Where it stands in a snapshot, a proper record is read back. -/
theorem Record.decode_within {r : Record} (hapart : r.ExtraApart) (hfits : r.Fits) :
    decode (r.toJson.within (recordRoom + 1)) = .ok r := by
  have hheight : r.toJson.height ≤ recordRoom + 1 :=
    Json.height_obj_le_iff.mpr (height_members_le hfits)
  rw [within_eq_ofJson hheight]
  exact decode_toJson hapart

namespace Snapshot

/-- The members of a snapshot are read in the order in which they are written. -/
theorem decode_members (form : Form) (d : Snapshot) {modules : Source}
    (h : modules.list Record.decode = .ok d.modules) :
    decode form (.obj ([(some "course", .str d.course),
      (some "academic_year", .str d.academicYear.label), (some "school", .str d.school)] ++
      (match d.scrapedAt with
        | none => []
        | some time => [(some "scraped_at", .str time)]) ++
      [(some "modules", modules)]) .closed) = .ok d := by
  obtain ⟨course, ⟨label⟩, school, scrapedAt, records⟩ := d
  cases scrapedAt with
  | none =>
    -- the time is read only if it is there; all else is the same in both cases
    simp [decode, foldMembers, Draft.read, once, h, bind, Except.bind, pure, Except.pure,
      Except.map, Source.textOrNull, Source.text, AcademicYear.decode, required,
      DecodeError.ofFault, Ending.read]
  | some time =>
    simp [decode, foldMembers, Draft.read, once, h, bind, Except.bind, pure, Except.pure,
      Except.map, Source.textOrNull, Source.text, Source.optional, AcademicYear.decode, required,
      DecodeError.ofFault, Ending.read]

/-- If the doubles in it read back, the text of a snapshot with proper records is decoded as the
snapshot. -/
theorem decodeText_documentText {d : Snapshot}
    (hreals : ∀ x, Number.real x ∈ d.toJson.numbers → (Number.real x).ReadsBack)
    (hrecords : ∀ r ∈ d.modules, r.ExtraApart ∧ r.Fits) :
    decodeText (decode .text) (Store.documentText d.toJson) = .ok d := by
  -- every record comes back from its text, since it fits
  have hmodules : ((Json.arr (d.modules.map Record.toJson)).within (recordRoom + 2)).list
      Record.decode = .ok d.modules := by
    rw [list_within, List.mapM_map]
    refine mapM_eq_ok_iff.mpr (List.forall₂_same.mpr fun r hr => ?_)
    obtain ⟨hapart, hfits⟩ := hrecords r hr
    exact Record.decode_within hapart hfits
  have hwithin : d.toJson.within maxDepth = .obj ([(some "course", .str d.course),
      (some "academic_year", .str d.academicYear.label), (some "school", .str d.school)] ++
      (match d.scrapedAt with
        | none => []
        | some time => [(some "scraped_at", .str time)]) ++
      [(some "modules", (Json.arr (d.modules.map Record.toJson)).within (recordRoom + 2))])
      .closed := by
    rw [toJson]
    cases d.scrapedAt <;> rfl
  rw [Store.documentText, decodeText_indented (readsBack_of_reals hreals), hwithin]
  exact decode_members .text d hmodules

end Snapshot

end Prospectus
