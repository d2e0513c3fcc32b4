import Prospectus.Proofs.Scrub.Record

/-! # Sections that scrubbing drops

Scrubbing a document counts the content sections that it takes out of the records. The number is
that of the titles which a record has before and not after (`sectionsRemoved_eq`); these are the
titles of the list of students, headers of modules, and sections of which nothing is left
(`mem_dropped_iff`). The capstone `documents_settle` puts the count and the idempotence of
scrubbing together, for records, snapshots and catalogues: a second time nothing is dropped and
nothing changes.

The program counts by comparing sizes, the number of sections before less the number after. That is
a count of what was dropped because scrubbing never adds a section and never renames one, so the
titles after are among those before. The same holds of any scrubber, whatever its patterns are. -/

namespace Prospectus.Scrub.Scrubber

variable {s : Scrubber} {r : Record}

/-- The titles of the content sections that a record loses when it is scrubbed. -/
def dropped (s : Scrubber) (r : Record) : List String :=
  r.contentSections.keys.filter fun title => !(s.scrubRecord r).contentSections.contains title

theorem contains_scrubSections_iff {title body : String}
    (h : r.contentSections.find? title = some body) :
    (s.scrubRecord r).contentSections.contains title = keepsSection title (s.scrub body) := by
  rw [Bool.eq_iff_iff, Dict.contains, Option.isSome_iff_exists]
  constructor
  · rintro ⟨kept, hkept⟩
    obtain ⟨hmap, hkeeps⟩ := Dict.find?_filter_eq_some.mp hkept
    rw [Dict.find?_map, h, Option.map_some] at hmap
    exact Option.some.inj hmap ▸ hkeeps
  · intro hkeeps
    refine ⟨s.scrub body, Dict.find?_filter_eq_some.mpr ⟨?_, hkeeps⟩⟩
    rw [Dict.find?_map, h, Option.map_some]

/-- A section is dropped for its title, or because nothing of its body is left. The body is the one
after scrubbing. -/
theorem mem_dropped_iff {title : String} : title ∈ s.dropped r ↔
    ∃ body, r.contentSections.find? title = some body ∧
      (title = studentsTitle ∨ isHeaderTitle title = true ∨ s.scrub body = "") := by
  rw [dropped, List.mem_filter, Dict.mem_keys_iff, ← exists_and_right]
  refine exists_congr fun body => and_congr_right fun hbody => ?_
  rw [contains_scrubSections_iff hbody, Bool.not_eq_true', ← Bool.not_eq_true, keepsSection_iff]
  simp only [Ne, not_and_or, not_not, Bool.not_eq_false]

/-- The number of sections removed is that of the titles dropped. -/
theorem sectionsRemoved_eq (s : Scrubber) (r : Record) :
    s.sectionsRemoved r = (s.dropped r).length := by
  let keeps (e : String × String) : Bool := keepsSection e.1 (s.scrub e.2)
  have hkept :
      (s.scrubSections r.contentSections).size = r.contentSections.entries.countP keeps := by
    simp only [scrubSections, Dict.size, Dict.filter, Dict.map, ← List.countP_eq_length_filter,
      List.countP_map]
    rfl
  have hdropped : (s.dropped r).length = r.contentSections.entries.countP fun e => !keeps e := by
    rw [dropped, ← List.countP_eq_length_filter, Dict.keys, List.countP_map]
    refine List.countP_congr fun e he => ?_
    have hfind : r.contentSections.find? e.1 = some e.2 := Dict.mem_entries_iff.mp he
    rw [Function.comp_apply, contains_scrubSections_iff hfind]
  -- what is kept and what is dropped make up all sections
  have hall : r.contentSections.size = _ := List.length_eq_countP_add_countP keeps
  simp only [Bool.not_eq_true, Bool.decide_eq_false] at hall
  rw [sectionsRemoved, hkept, hdropped, hall]
  omega

/-- Scrubbing drops and counts once. The report of the first time gives the number of content
sections that were dropped, and a second time changes nothing and drops none. -/
theorem documents_settle (s : Scrubber) :
    (∀ r : Record, s.sectionsRemoved r = (s.dropped r).length ∧
      s.scrubRecord (s.scrubRecord r) = s.scrubRecord r ∧
      s.sectionsRemoved (s.scrubRecord r) = 0) ∧
    (∀ d : Snapshot,
      s.reportSnapshot d =
        ⟨d.modules.length, (d.modules.map fun r => (s.dropped r).length).foldr (· + ·) 0⟩ ∧
      s.scrubSnapshot (s.scrubSnapshot d) = s.scrubSnapshot d ∧
      s.reportSnapshot (s.scrubSnapshot d) = ⟨d.modules.length, 0⟩) ∧
    ∀ c : Catalog,
      s.reportCatalog c =
        ⟨c.modules.length, (c.modules.map fun m => (s.dropped m.record).length).foldr (· + ·) 0⟩ ∧
      s.scrubCatalog (s.scrubCatalog c) = s.scrubCatalog c ∧
      s.reportCatalog (s.scrubCatalog c) = ⟨c.modules.length, 0⟩ := by
  have hcount : s.sectionsRemoved = fun r => (s.dropped r).length := funext s.sectionsRemoved_eq
  refine ⟨fun r => ?_, fun d => ?_, fun c => ?_⟩
  · -- the first time as many titles go as are dropped, the second time none
    have hscrubbed : (s.scrubRecord r).Scrubbed s := s.scrubbed_scrubRecord r
    exact ⟨s.sectionsRemoved_eq r, scrubRecord_eq_self hscrubbed, sectionsRemoved_eq_zero hscrubbed⟩
  · refine ⟨?_, s.scrubSnapshot_scrubSnapshot d, s.reportSnapshot_scrubSnapshot d⟩
    rw [reportSnapshot, hcount]
  · have hscrubbed : ∀ m ∈ (s.scrubCatalog c).modules, m.Scrubbed s := s.scrubbed_scrubCatalog c
    refine ⟨?_, scrubCatalog_eq_self hscrubbed, ?_⟩
    · rw [reportCatalog, hcount]
    · rw [reportCatalog_eq hscrubbed]
      exact congrArg (Report.mk · 0) (List.length_map _)

end Prospectus.Scrub.Scrubber
