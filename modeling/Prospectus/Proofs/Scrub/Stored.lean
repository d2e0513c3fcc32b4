import Prospectus.Proofs.Catalog.Decoded
import Prospectus.Proofs.Scrub.Record

/-! # Scrubbing keeps what can be stored

Scrubbing adds no field and makes no value higher. So what a text has a place for still has it after
scrubbing: a record stays apart from the declared names and fits (`extraApart_scrubRecord`,
`fits_scrubRecord`), and the module of a catalogue stays keepable (`keepable_scrubMerged`).

Scrubbing a value goes into texts only. A value of any other kind is left as it is, names and
numbers in it included, so its height does not change. -/

namespace Prospectus

open Std Json Scrub

namespace Scrub.Scrubber

/-- Scrubbing changes texts, so no value gets higher. -/
theorem height_scrubValue (s : Scrubber) (v : Value) :
    (s.scrubValue v).tree.height = v.tree.height := by
  rcases v.text_or_mapText_eq with ⟨t, rfl⟩ | hsame
  · rfl
  · rw [scrubValue, hsame]

/-- An extra field of a scrubbed record is a scrubbed one of the record. -/
theorem find?_extra_scrubRecord {s : Scrubber} {r : Record} {name : String} {v : Value}
    (h : (s.scrubRecord r).extra.find? name = some v) :
    ∃ raw, r.extra.find? name = some raw ∧ s.scrubValue raw = v := by
  rw [scrubRecord, Dict.find?_map, Option.map_eq_some_iff] at h
  obtain ⟨raw, hraw, hv⟩ := h
  exact ⟨raw, (Dict.find?_erase_eq_some.mp hraw).1, hv⟩

theorem find?_extra_scrubRecord_eq_none (s : Scrubber) {r : Record} {name : String}
    (h : r.extra.find? name = none) : (s.scrubRecord r).extra.find? name = none := by
  cases hfind : (s.scrubRecord r).extra.find? name with
  | none => rfl
  | some v =>
    obtain ⟨raw, hraw, -⟩ := find?_extra_scrubRecord hfind
    cases h.symm.trans hraw

theorem extraApart_scrubRecord (s : Scrubber) {r : Record} (h : r.ExtraApart) :
    (s.scrubRecord r).ExtraApart := by
  intro name v hv
  obtain ⟨raw, hraw, -⟩ := find?_extra_scrubRecord hv
  exact h name raw hraw

theorem fits_scrubRecord (s : Scrubber) {r : Record} (h : r.Fits) : (s.scrubRecord r).Fits where
  extra name v hv := by
    obtain ⟨raw, hraw, rfl⟩ := find?_extra_scrubRecord hv
    exact (s.height_scrubValue raw).trans_le (h.extra name raw hraw)
  moduleRules := (s.height_scrubValue r.moduleRules).trans_le h.moduleRules

theorem keepable_scrubMerged (s : Scrubber) {m : MergedModule} (h : m.Keepable) :
    (s.scrubMerged m).Keepable where
  apart := s.extraApart_scrubRecord h.apart
  fits := s.fits_scrubRecord h.fits
  storable :=
    { ownNames := fun name hname =>
        s.find?_extra_scrubRecord_eq_none (h.storable.ownNames name hname)
      rulesByYear := by
        intro rules hrules v hv
        obtain ⟨raw, hraw, rfl⟩ := Option.map_eq_some_iff.mp hrules
        rw [Dict.values_map] at hv
        obtain ⟨w, hw, rfl⟩ := List.mem_map.mp hv
        exact (s.height_scrubValue w).trans_lt (h.storable.rulesByYear raw hraw w hw) }

end Scrub.Scrubber

end Prospectus
