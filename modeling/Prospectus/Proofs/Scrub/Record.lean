import Prospectus.Proofs.Scrub.Row

/-!
# Scrubbed records

`Record.Scrubbed s r` lists what it means that the scrubber `s` finds nothing in a record: field by
field, the texts are left as they are and nothing is dropped. Scrubbing gives such a record
(`scrubbed_scrubRecord`) and leaves such a record alone (`scrubRecord_eq_self`), so scrubbing twice
is scrubbing once. The same holds of snapshots and catalogues, which are scrubbed record by record,
and the report of a second time is that nothing was removed.
-/

namespace Prospectus

open Std Scrub

/-! ### Dictionaries that an operation leaves alone

A dictionary is left alone by a map or a filter if each of its entries is. -/

namespace Dict

variable {κ : Type _} {α : Type _} [Ord κ]

theorem map_eq_self [TransOrd κ] [LawfulEqOrd κ] {d : Dict κ α} {f : α → α}
    (h : ∀ k x, d.find? k = some x → f x = x) : d.map f = d := by
  refine ext_find? fun k => ?_
  rw [find?_map]
  cases hk : d.find? k with
  | none => rfl
  | some x => rw [Option.map_some, h k x hk]

theorem filter_eq_self [TransOrd κ] [LawfulEqOrd κ] {d : Dict κ α} {p : κ → α → Bool}
    (h : ∀ k x, d.find? k = some x → p k x = true) : d.filter p = d := by
  refine ext_entries (List.filter_eq_self.mpr ?_)
  rintro ⟨k, x⟩ he
  exact h k x (mem_entries_iff.mp he)

theorem find?_filter_eq_some [TransOrd κ] [LawfulEqOrd κ] {d : Dict κ α} {p : κ → α → Bool} {k : κ}
    {x : α} : (d.filter p).find? k = some x ↔ d.find? k = some x ∧ p k x = true := by
  rw [← mem_entries_iff, ← mem_entries_iff, filter, List.mem_filter]

theorem find?_erase_eq_some [TransOrd κ] [LawfulEqOrd κ] {d : Dict κ α} {j k : κ} {x : α} :
    (d.erase j).find? k = some x ↔ d.find? k = some x ∧ k ≠ j := by
  rw [erase, find?_filter_eq_some, bne_iff_ne, Ne, LawfulEqCmp.compare_eq_iff_eq]
  exact and_congr_right fun _ => ne_comm

end Dict

namespace Json.Value

/-- A value is a text or is left alone by all that changes texts. -/
theorem text_or_mapText_eq (v : Value) : (∃ t, v = text t) ∨ ∀ f, v.mapText f = v := by
  obtain ⟨tree, normal⟩ := v
  cases tree with
  | str t => exact .inl ⟨t, rfl⟩
  | null | bool _ | num _ | arr _ | obj _ => exact .inr fun _ => rfl

end Json.Value

/-! ### Records

What it means for a scrubber to find nothing is a condition on each field, according to how the
field is scrubbed. Idempotence then is two facts: scrubbing establishes the condition, and under the
condition it is the identity. Both are useful on their own, as the condition is also what a merged
module has from the records it was made of. -/

/-- The text fields that are scrubbed like any other text. -/
def Record.texts (r : Record) : List String :=
  [r.sectionLabel, r.creditRule, r.notes, r.description, r.assessment, r.credits, r.period,
    r.subSlot]

/-- The scrubber finds nothing in a value. -/
def Json.Value.Scrubbed (s : Scrubber) (v : Json.Value) : Prop :=
  ∀ t, v = .text t → s.scrub t = t

/-- The scrubber finds nothing in a record. The sections and extra fields that are dropped are not
there, and all other texts but the identity and the codes of prerequisites are left as they are. -/
structure Record.Scrubbed (s : Scrubber) (r : Record) : Prop where
  texts : ∀ t ∈ r.texts, s.scrub t = t
  tableInfo : cleanTableInfo r.tableInfo = r.tableInfo ∧ s.scrub r.tableInfo = r.tableInfo
  moduleRules : r.moduleRules.Scrubbed s
  sections : ∀ title body, r.contentSections.find? title = some body →
    (title ≠ studentsTitle ∧ isHeaderTitle title = false ∧ body ≠ "") ∧ s.scrub body = body
  extra : ∀ name v, r.extra.find? name = some v → name ≠ rawTextField ∧ v.Scrubbed s

namespace Scrub.Scrubber

variable {s : Scrubber} {r : Record}

theorem scrubbed_scrubValue (s : Scrubber) (v : Json.Value) : (s.scrubValue v).Scrubbed s := by
  intro t ht
  rcases v.text_or_mapText_eq with ⟨u, rfl⟩ | hsame
  · obtain rfl : s.scrub u = t := Json.str.inj (congrArg Json.Value.tree ht)
    exact s.scrub_scrub u
  · rw [scrubValue, hsame] at ht
    rw [ht] at hsame
    exact Json.str.inj (congrArg Json.Value.tree (hsame s.scrub))

theorem scrubValue_eq_self {v : Json.Value} (h : v.Scrubbed s) : s.scrubValue v = v := by
  rcases v.text_or_mapText_eq with ⟨t, rfl⟩ | hsame
  · exact congrArg Json.Value.text (h t rfl)
  · exact hsame s.scrub

theorem keepsSection_iff {title body : String} : keepsSection title body = true ↔
    title ≠ studentsTitle ∧ isHeaderTitle title = false ∧ body ≠ "" := by
  simp only [keepsSection, Bool.not_eq_true', Bool.or_eq_false_iff, beq_eq_false_iff_ne, and_assoc,
    Ne, ← String.isEmpty_iff, Bool.not_eq_true]

/-- Scrubbing leaves nothing to be found. -/
theorem scrubbed_scrubRecord (s : Scrubber) (r : Record) : (s.scrubRecord r).Scrubbed s where
  texts t ht := by
    simp only [Record.texts, scrubRecord, List.mem_cons, List.not_mem_nil, or_false] at ht
    rcases ht with rfl | rfl | rfl | rfl | rfl | rfl | rfl | rfl <;> exact s.scrub_scrub _
  tableInfo := s.settled_scrubRow r.tableInfo
  moduleRules := s.scrubbed_scrubValue r.moduleRules
  sections title body h := by
    obtain ⟨hfind, hkeeps⟩ := Dict.find?_filter_eq_some.mp h
    rw [Dict.find?_map, Option.map_eq_some_iff] at hfind
    obtain ⟨raw, -, rfl⟩ := hfind
    exact ⟨keepsSection_iff.mp hkeeps, s.scrub_scrub raw⟩
  extra name v h := by
    rw [scrubRecord, Dict.find?_map, Option.map_eq_some_iff] at h
    obtain ⟨raw, hraw, rfl⟩ := h
    exact ⟨(Dict.find?_erase_eq_some.mp hraw).2, s.scrubbed_scrubValue raw⟩

theorem scrubSections_eq_self (h : r.Scrubbed s) :
    s.scrubSections r.contentSections = r.contentSections := by
  have hmap : r.contentSections.map s.scrub = r.contentSections :=
    Dict.map_eq_self fun title body hfind => (h.sections title body hfind).2
  rw [scrubSections, hmap]
  exact Dict.filter_eq_self fun title body hfind =>
    keepsSection_iff.mpr (h.sections title body hfind).1

/-- A record in which nothing is found stays as it is. -/
theorem scrubRecord_eq_self (h : r.Scrubbed s) : s.scrubRecord r = r := by
  have htexts := h.texts
  simp only [Record.texts, List.forall_mem_cons] at htexts
  obtain ⟨hsection, hcredit, hnotes, hdesc, hassess, hcredits, hperiod, hslot, -⟩ := htexts
  have hrow : s.scrubRow r.tableInfo = r.tableInfo :=
    s.scrubRow_eq_self h.tableInfo.1 h.tableInfo.2
  have herase : r.extra.erase rawTextField = r.extra := by
    refine Dict.filter_eq_self fun name v hfind => ?_
    rw [bne_iff_ne, Ne, LawfulEqCmp.compare_eq_iff_eq, eq_comm]
    exact (h.extra name v hfind).1
  have hextra : r.extra.map s.scrubValue = r.extra :=
    Dict.map_eq_self fun name v hfind => scrubValue_eq_self (h.extra name v hfind).2
  simp only [scrubRecord, hsection, hcredit, hnotes, hdesc, hassess, hcredits, hperiod, hslot, hrow,
    scrubValue_eq_self h.moduleRules, scrubSections_eq_self h, herase, hextra]

theorem sectionsRemoved_eq_zero (h : r.Scrubbed s) : s.sectionsRemoved r = 0 := by
  rw [sectionsRemoved, scrubSections_eq_self h, Nat.sub_self]

theorem scrubSnapshot_scrubSnapshot (s : Scrubber) (d : Snapshot) :
    s.scrubSnapshot (s.scrubSnapshot d) = s.scrubSnapshot d := by
  have hmodules : (d.modules.map s.scrubRecord).map s.scrubRecord =
      d.modules.map s.scrubRecord := by
    rw [List.map_map]
    exact List.map_congr_left fun r _ => scrubRecord_eq_self (s.scrubbed_scrubRecord r)
  simp only [scrubSnapshot, hmodules]

end Scrub.Scrubber

/-! ### Merged modules

The record, and the rules of each year. -/

/-- The scrubber finds nothing in a merged module, the rules of each year included. -/
structure MergedModule.Scrubbed (s : Scrubber) (m : MergedModule) : Prop where
  record : m.record.Scrubbed s
  rulesByYear : ∀ rules ∈ m.rulesByYear, ∀ y v, rules.find? y = some v → v.Scrubbed s

theorem Scrub.Scrubber.scrubMerged_eq_self {s : Scrubber} {m : MergedModule} (h : m.Scrubbed s) :
    s.scrubMerged m = m := by
  have hrules : (m.rulesByYear.map fun rules => rules.map s.scrubValue) = m.rulesByYear := by
    cases hm : m.rulesByYear with
    | none => rfl
    | some rules =>
      have hmap : rules.map s.scrubValue = rules :=
        Dict.map_eq_self fun y v hfind => scrubValue_eq_self (h.rulesByYear rules hm y v hfind)
      rw [Option.map_some, hmap]
  simp only [scrubMerged, scrubRecord_eq_self h.record, hrules]

namespace Scrub.Scrubber

theorem scrubbed_scrubMerged (s : Scrubber) (m : MergedModule) : (s.scrubMerged m).Scrubbed s where
  record := s.scrubbed_scrubRecord m.record
  rulesByYear rules hrules y v hv := by
    obtain ⟨raw, -, rfl⟩ := Option.map_eq_some_iff.mp hrules
    rw [Dict.find?_map, Option.map_eq_some_iff] at hv
    obtain ⟨w, -, rfl⟩ := hv
    exact s.scrubbed_scrubValue w

/-! ### Catalogues

A catalogue is scrubbed module by module. -/

theorem scrubCatalog_eq_self {s : Scrubber} {c : Catalog} (h : ∀ m ∈ c.modules, m.Scrubbed s) :
    s.scrubCatalog c = c := by
  have hmodules : c.modules.map s.scrubMerged = c.modules := by
    conv_rhs => rw [← List.map_id c.modules]
    exact List.map_congr_left fun m hm => scrubMerged_eq_self (h m hm)
  rw [scrubCatalog, hmodules]

theorem scrubbed_scrubCatalog (s : Scrubber) (c : Catalog) :
    ∀ m ∈ (s.scrubCatalog c).modules, m.Scrubbed s := by
  intro m hm
  obtain ⟨raw, -, rfl⟩ := List.mem_map.mp hm
  exact s.scrubbed_scrubMerged raw

/-! ### Reports

What is reported is the number of modules and of sections removed. The first of these scrubbing does
not change; the second is zero where nothing is found. -/

theorem sum_sectionsRemoved_eq_zero {s : Scrubber} {rs : List Record}
    (h : ∀ r ∈ rs, r.Scrubbed s) : (rs.map s.sectionsRemoved).foldr (· + ·) 0 = 0 := by
  induction rs with
  | nil => rfl
  | cons r rs ih =>
    obtain ⟨hr, hrs⟩ := List.forall_mem_cons.mp h
    rw [List.map_cons, List.foldr_cons, ih hrs, sectionsRemoved_eq_zero hr]

/-- Nothing is removed from a snapshot that was scrubbed. -/
theorem reportSnapshot_scrubSnapshot (s : Scrubber) (d : Snapshot) :
    s.reportSnapshot (s.scrubSnapshot d) = ⟨d.modules.length, 0⟩ := by
  have hscrubbed : ∀ r ∈ (s.scrubSnapshot d).modules, r.Scrubbed s := by
    intro r hr
    obtain ⟨raw, -, rfl⟩ := List.mem_map.mp hr
    exact s.scrubbed_scrubRecord raw
  rw [reportSnapshot, sum_sectionsRemoved_eq_zero hscrubbed]
  exact congrArg (Report.mk · 0) (List.length_map _)

/-- Nothing is removed from a catalogue in which nothing is found. -/
theorem reportCatalog_eq {s : Scrubber} {c : Catalog} (h : ∀ m ∈ c.modules, m.Scrubbed s) :
    s.reportCatalog c = ⟨c.modules.length, 0⟩ := by
  have hrecords : ∀ r ∈ c.modules.map MergedModule.record, r.Scrubbed s := by
    intro r hr
    obtain ⟨m, hm, rfl⟩ := List.mem_map.mp hr
    exact (h m hm).record
  have hzero := sum_sectionsRemoved_eq_zero hrecords
  rw [List.map_map] at hzero
  exact congrArg (Report.mk _) hzero

end Scrub.Scrubber

end Prospectus
