import Prospectus.Proofs.Rebuild.Cleaning
import Prospectus.Proofs.Scrub.Stored

/-!
# Storing a rebuilt catalogue

A catalogue that was made from the texts of snapshots holds, module by module, the extra fields and
the rules of scrubbed records, and scrubbing adds no field and makes no value higher. So its records
are proper, and its text gives it back exactly if its modules are storable (`stored_rebuild`). They
need not be: a record may have an extra field under a name that only merged modules use, and rules
that a snapshot just has room for have none by year.
-/

namespace Prospectus

open Std Json Scrub Snapshot

/-! ### Where the values of a catalogue come from

Two kinds of values may be too deep or stand under a bad name: extra fields and rules. Both are
taken over from single records as they are, never put together from several. -/

/-- The extra fields and rules of a module are those of a record of the walk, and so are its rules
of each year. -/
theorem exists_record_of_mem_modules {e : RulesEquivalence} {walk : List Snapshot}
    {m : MergedModule} (hm : m ∈ (Outcome.ofWalk e walk).modules) :
    (∃ d ∈ walk, ∃ r ∈ d.modules,
      m.record.extra = r.extra ∧ m.record.moduleRules = r.moduleRules) ∧
    ∀ rules ∈ m.rulesByYear, ∀ v ∈ rules.values,
      ∃ d ∈ walk, ∃ r ∈ d.modules, r.moduleRules = v := by
  obtain ⟨-, o, hsums, rfl⟩ := sums_of_mem_modules hm
  have hseen : ∀ p ∈ sightingsOf walk (o.merged e).identity, ∃ d ∈ walk, p.record ∈ d.modules := by
    intro p hp
    obtain ⟨d, hd, -, hr, -⟩ := mem_sightings.mp (List.mem_of_mem_filter hp)
    exact ⟨d, hd, hr⟩
  constructor
  · -- extra fields and rules are those of the last record
    obtain ⟨p, hp, hrecord⟩ := hsums.record
    obtain ⟨d, hd, hr⟩ := hseen p (List.mem_of_getLast? hp)
    have hextra : o.record.extra = p.record.extra := by rw [hrecord]
    have hrules : o.record.moduleRules = p.record.moduleRules := by rw [hrecord]
    exact ⟨d, hd, p.record, hr, hextra, hrules⟩
  · -- and each of the rules by year is that of some record
    intro rules hrules v hv
    obtain ⟨y, hy⟩ := Dict.mem_values_iff.mp hv
    obtain ⟨p, hp, hsame⟩ := hsums.exists_of_mem_rulesByYear hrules hy
    obtain ⟨d, hd, hr⟩ := hseen p hp
    exact ⟨d, hd, p.record, hr, hsame⟩

/-! ### The text of a rebuilt catalogue

The records of a snapshot that was read from a text are proper, and scrubbing keeps them so. Proper
records are all that is asked of a catalogue to have the exact condition for its text
(`Catalog.decodeText_documentText_iff`). The second part gives a condition on the snapshots that is
enough, and which one can check before rebuilding. -/

/-- The modules of a catalogue of scrubbed snapshots hold what scrubbing left of their records. -/
theorem exists_record_of_rebuild {snapshots : List Snapshot} {s : Scrubber}
    {e : RulesEquivalence} {o : Outcome} {course school : String} {c : Catalog}
    (hr : reconcile e (snapshots.map s.scrubSnapshot) = .ok o)
    (hb : Catalog.build course school o = .ok c) {m : MergedModule} (hm : m ∈ c.modules) :
    (∃ d ∈ snapshots, ∃ r ∈ d.modules, m.record.extra = (s.scrubRecord r).extra ∧
      m.record.moduleRules = (s.scrubRecord r).moduleRules) ∧
    ∀ rules ∈ m.rulesByYear, ∀ v ∈ rules.values,
      ∃ d ∈ snapshots, ∃ r ∈ d.modules, s.scrubValue r.moduleRules = v := by
  obtain ⟨walk, hperm, -, hmodules, -⟩ := Catalog.exists_walk_of_build hr hb
  -- the records of the walk are scrubbed ones
  have hraw : ∀ d ∈ walk, ∀ r ∈ d.modules,
      ∃ d' ∈ snapshots, ∃ r' ∈ d'.modules, s.scrubRecord r' = r := by
    intro d hd r hr
    obtain ⟨d', hd', rfl⟩ := List.mem_map.mp (hperm.mem_iff.mp hd)
    obtain ⟨r', hr', hsame⟩ := List.mem_map.mp hr
    exact ⟨d', hd', r', hr', hsame⟩
  obtain ⟨⟨d, hd, r, hr, hextra, hrules⟩, hbyYear⟩ :=
    exists_record_of_mem_modules (hmodules.mem_iff.mp hm)
  constructor
  · obtain ⟨d', hd', r', hr', rfl⟩ := hraw d hd r hr
    exact ⟨d', hd', r', hr', hextra, hrules⟩
  · intro rules hmem v hv
    obtain ⟨d, hd, r, hr, rfl⟩ := hbyYear rules hmem v hv
    obtain ⟨d', hd', r', hr', rfl⟩ := hraw d hd r hr
    exact ⟨d', hd', r', hr', rfl⟩

/-- The text of a catalogue that was made from texts of snapshots, under any rules and with any
scrubber, is read back as the catalogue exactly if all its modules are storable. They are if no
record of the snapshots has an extra field under a name of a merged module, or rules that fill all
the room that there is. -/
theorem stored_rebuild {texts : List String} {snapshots : List Snapshot} {s : Scrubber}
    {e : RulesEquivalence} {o : Outcome} {course school : String} {c : Catalog}
    (htexts : texts.mapM (decodeText (Snapshot.decode .text)) = .ok snapshots)
    (hr : reconcile e (snapshots.map s.scrubSnapshot) = .ok o)
    (hb : Catalog.build course school o = .ok c)
    (hreals : ∀ x, Number.real x ∈ c.toJson.numbers → (Number.real x).ReadsBack) :
    (decodeText (Catalog.decode .text) (Store.documentText c.toJson) = .ok c ↔
      ∀ m ∈ c.modules, m.Storable) ∧
    ((∀ d ∈ snapshots, ∀ r ∈ d.modules,
        (∀ name ∈ MergedModule.ownNames, r.extra.find? name = none) ∧
          r.moduleRules.tree.height < recordRoom) →
      decodeText (Catalog.decode .text) (Store.documentText c.toJson) = .ok c) := by
  -- the snapshots were read from texts, so their records leave room for what is written around
  -- them
  have hread : ∀ d ∈ snapshots, ∀ r ∈ d.modules, r.ExtraApart ∧ r.Fits := by
    intro d hd
    obtain ⟨text, -, htext⟩ := exists_mem_of_mem_mapM htexts hd
    exact fits_of_decodeText htext
  have hrecords : ∀ m ∈ c.modules, m.record.ExtraApart ∧ m.record.Fits := by
    intro m hm
    obtain ⟨⟨d, hd, r, hr, hextra, hrules⟩, -⟩ := exists_record_of_rebuild hr hb hm
    obtain ⟨hapart, hfits⟩ := hread d hd r hr
    have hapart := s.extraApart_scrubRecord hapart
    have hfits := s.fits_scrubRecord hfits
    exact ⟨fun name v hv => hapart name v (hextra ▸ hv),
      fun name v hv => hfits.extra name v (hextra ▸ hv), hrules ▸ hfits.moduleRules⟩
  have hiff := Catalog.decodeText_documentText_iff hreals hrecords
  -- scrubbing and merging bring no name and no level that the records did not have
  refine ⟨hiff, fun hplain => hiff.mpr fun m hm => ?_⟩
  obtain ⟨⟨d, hd, r, hr, hextra, -⟩, hrules⟩ := exists_record_of_rebuild hr hb hm
  -- no extra field has a name of the merged module, and no rules are too deep for it
  constructor
  · intro name hname
    have hnone := s.find?_extra_scrubRecord_eq_none ((hplain d hd r hr).1 name hname)
    rw [hextra, hnone]
  · intro rules hmem v hv
    obtain ⟨d, hd, r, hr, rfl⟩ := hrules rules hmem v hv
    exact (s.height_scrubValue r.moduleRules).trans_lt (hplain d hd r hr).2

/-- The tree of a snapshot with one record. -/
def captureTree (year : String) (fields : List (String × Json)) : Json :=
  .obj [("academic_year", .str year), ("modules",
    .arr [.obj (("module_code", .str "MTH1") :: ("year", .str "Year 1") :: fields)])]

theorem decodeText_captureTree {year : String} {fields : List (String × Json)} {d : Snapshot}
    (hnumbers : ∀ n ∈ (captureTree year fields).numbers, n.ReadsBack)
    (h : Snapshot.decode .text ((captureTree year fields).within Source.maxDepth) = .ok d) :
    decodeText (Snapshot.decode .text) (Store.documentText (captureTree year fields)) = .ok d := by
  rw [Store.documentText, decodeText_indented hnumbers, h]

/-- The texts of trees are read as snapshots if the trees are decoded as these. -/
theorem decodeText_trees {trees : List Json} {snapshots : List Snapshot}
    (hnumbers : ∀ j ∈ trees, ∀ n ∈ j.numbers, n.ReadsBack)
    (h : trees.mapM (fun j => Snapshot.decode .text (j.within Source.maxDepth)) = .ok snapshots) :
    (trees.map Store.documentText).mapM (decodeText (Snapshot.decode .text)) = .ok snapshots := by
  rw [List.mapM_map, ← h]
  refine mapM_congr fun j hj => ?_
  show decodeText (Snapshot.decode .text) (j.indented ++ "\n") = _
  rw [decodeText_indented (hnumbers j hj)]

/-- Rules that are no text, with a double in them. -/
def listedRules : Json := .obj [("any", .arr [.num (.real (.zero false)), .bool true])]

/-- What a record says under a name that it has no place for. -/
def listedRooms : Json := .arr [.str "B \"2\"", .obj []]

/-- Two captures whose rules differ, with a person in one of them. -/
def variedTrees : List Json :=
  [captureTree "2025/6" [("module_rules", .null), ("notes", .null)],
    captureTree "2026/7"
      [("module_rules", listedRules), ("notes", .str "Ann"), ("rooms", listedRooms)]]

/-- The captures that these trees are read as. -/
def variedCaptures : List Snapshot :=
  [⟨"", ⟨"2025/6"⟩, "", none, [{ Record.blank "MTH1" "Year 1" with moduleRules := .ofJson .null }]⟩,
    ⟨"", ⟨"2026/7"⟩, "", none, [{ Record.blank "MTH1" "Year 1" with
      moduleRules := .ofJson listedRules
      notes := "Ann"
      extra := .ofList [("rooms", .ofJson listedRooms)] }]⟩]

/-- The catalogue of the captures, without the person. -/
def variedCatalog : Catalog :=
  ⟨"", "", [⟨"2025/6"⟩, ⟨"2026/7"⟩],
    [⟨{ Record.blank "MTH1" "Year 1" with
        moduleRules := .ofJson listedRules
        extra := .ofList [("rooms", .ofJson listedRooms)] },
      [⟨"2025/6"⟩, ⟨"2026/7"⟩],
      some (.ofList [(⟨"2025/6"⟩, .ofJson .null), (⟨"2026/7"⟩, .ofJson listedRules)])⟩]⟩

theorem decode_variedTrees : (variedTrees.map Store.documentText).mapM
    (decodeText (Snapshot.decode .text)) = .ok variedCaptures := by
  have hnumbers : ∀ j ∈ variedTrees, ∀ n ∈ j.numbers, n.ReadsBack := by decide +kernel
  exact decodeText_trees hnumbers (by decide +kernel)

def annScrubber : Scrubber := ⟨["Ann".toList], []⟩

theorem build_variedCaptures :
    ∃ o, reconcile .canonical (variedCaptures.map annScrubber.scrubSnapshot) = .ok o ∧
      Catalog.build "" "" o = .ok variedCatalog := by
  have hmodules : (Outcome.ofWalk .canonical
      (variedCaptures.map annScrubber.scrubSnapshot)).modules = variedCatalog.modules := by
    decide +kernel
  exact Catalog.build_of_ascending (by decide) rfl hmodules (by decide) (by decide)

theorem stored_rebuild_varied :
    (variedTrees.map Store.documentText).mapM (decodeText (Snapshot.decode .text)) =
      .ok variedCaptures ∧
    (∃ o, reconcile .canonical (variedCaptures.map annScrubber.scrubSnapshot) = .ok o ∧
      Catalog.build "" "" o = .ok variedCatalog) ∧
    Number.real (.zero false) ∈ variedCatalog.toJson.numbers ∧
    decodeText (Catalog.decode .text) (Store.documentText variedCatalog.toJson) =
      .ok variedCatalog := by
  obtain ⟨o, hr, hb⟩ := build_variedCaptures
  have hreals : ∀ x, Number.real x ∈ variedCatalog.toJson.numbers → (Number.real x).ReadsBack := by
    have hall : ∀ n ∈ variedCatalog.toJson.numbers, n.ReadsBack := by decide +kernel
    exact fun x hx => hall _ hx
  have hplain := (stored_rebuild decode_variedTrees hr hb hreals).2
  exact ⟨decode_variedTrees, ⟨o, hr, hb⟩, by decide +kernel, hplain (by decide +kernel)⟩

/-- A capture whose record has an extra field under a name that merged modules use. -/
def claimedTree : Json := captureTree "2025/6" [("available_years", .arr [.str "2025/6"])]

/-- The capture that this tree is read as. -/
def claimedCapture : Snapshot :=
  ⟨"", ⟨"2025/6"⟩, "", none, [{ Record.blank "MTH1" "Year 1" with
    extra := .ofList [("available_years", .ofJson (.arr [.str "2025/6"]))] }]⟩

def claimedCatalog : Catalog :=
  ⟨"", "", [⟨"2025/6"⟩], [⟨{ Record.blank "MTH1" "Year 1" with
    extra := .ofList [("available_years", .ofJson (.arr [.str "2025/6"]))] }, [⟨"2025/6"⟩], none⟩]⟩

/-- The text of a capture is accepted, and the text of the catalogue that is made from it is not: it
has the claimed name twice. -/
theorem not_stored_under_claimed_name :
    [Store.documentText claimedTree].mapM (decodeText (Snapshot.decode .text)) =
      .ok [claimedCapture] ∧
    (∃ o, reconcile .canonical ([claimedCapture].map annScrubber.scrubSnapshot) = .ok o ∧
      Catalog.build "" "" o = .ok claimedCatalog) ∧
    claimedCatalog.toJson.numbers = [] ∧
    decodeText (Catalog.decode .text) (Store.documentText claimedCatalog.toJson) =
      .error (.duplicateField "available_years") := by
  have hnumbers : claimedCatalog.toJson.numbers = [] := by decide +kernel
  have hmodules : (Outcome.ofWalk .canonical
      ([claimedCapture].map annScrubber.scrubSnapshot)).modules = claimedCatalog.modules := by
    decide +kernel
  refine ⟨?_, Catalog.build_of_ascending (by decide) rfl hmodules (by decide) (by decide), hnumbers,
    ?_⟩
  · refine mapM_eq_ok_iff.mpr (.cons (decodeText_captureTree ?_ ?_) .nil)
    · decide +kernel
    · decide +kernel
  · -- the catalogue is written and read with the label twice, which its reader refuses
    rw [Store.documentText, decodeText_indented (hnumbers ▸ List.forall_mem_nil _)]
    decide +kernel

end Prospectus
