import Prospectus.Proofs.Command.Run
import Prospectus.Proofs.Record.Stored
import Prospectus.Proofs.Scrub.Stored

/-! # Cleaning a file twice

Cleaning reads a document, scrubs it and writes it back to its file. What it writes can be read
again, as the scrubbed document and nothing else, so a second time there is nothing to find: the
same text is written and no section is removed (`clean_settles`).

Three facts meet here. A scrubbed document is fixed by its scrubber. A document that was read from
a text is read back from the text that is written of it, and scrubbing does not change that. And
what is written is what the next read gets, with the rest of the tree as it was. The text that is
read first may be in any shape that a reader takes, with members in another order, under another
name, or as a list; the text that is written is in one shape only. -/

namespace Prospectus.Command

open Json (Decoder decodeText)
open Run (on on_bind)
open Scrub (Report Scrubber)
open Store (DocumentKind Entry FileTree Path Session documentText loadCatalog loadSnapshot)

/-! ### Cleaning a document of any kind

Snapshots and catalogues are cleaned by one and the same procedure, which takes how to read, write
and scrub as parameters. What it needs of them are three equations: the scrubbed document is read
back, scrubbing it again changes nothing, and nothing is left to report. -/

/-- A file was cleaned: it holds a text now, all else in the tree is as it was, and cleaning it once
more leaves the tree as it is and finds no section to remove. -/
structure Settles (clean : Run Session Unit) (t t' : FileTree) (file : Path) (text : String)
    (found : Report) : Prop where
  first : ∀ lines, clean.on lines t = (.ok (), lines ++ [cleanedLine file found], t')
  written : t'.readText file = .ok text
  others : ∀ place, t.placeOf file ≠ .ok place → t'.entryAt? place = t.entryAt? place
  again : ∀ lines, clean.on lines t' =
    (.ok (), lines ++ [cleanedLine file ⟨found.modules, 0⟩], t')

/-- Read a document, change it and write it back, with a line about it. -/
def cleanDocument {α : Type} (kind : DocumentKind) (d : Decoder α) (encode : α → Json)
    (scrub : α → α) (report : α → Report) (file : Path) : Run Session Unit := do
  let x ← part .store (Store.load kind d file)
  part .store (Store.save kind file (encode (scrub x)))
  say (cleanedLine file (report x))

section

variable {α : Type} {kind : DocumentKind} {d : Decoder α} {encode : α → Json} {scrub : α → α}
  {report : α → Report} {t t' : FileTree} {file : Path} {place : List String} {x : α}

/-- Where a document can be read and its file written, cleaning writes the scrubbed document. -/
theorem on_cleanDocument (hload : t.load kind d file = .ok x) (hplace : t.placeOf file = .ok place)
    (hend : file.endsInDirectory = false) (hentry : t.entryAt? place ≠ some .directory)
    (lines : List String) :
    (cleanDocument kind d encode scrub report file).on lines t =
      (.ok (), lines ++ [cleanedLine file (report x)],
        t.put place (.file (documentText (encode (scrub x))).toUTF8)) := by
  -- the document is read, and reading leaves the tree as it is
  have hread : on (part .store (Store.load kind d file)) lines t = (.ok x, lines, t) := by
    rw [on_part, Store.on_load, hload]
    rfl
  -- the scrubbed document is written over it
  have hwrite : on (part .store (Store.save kind file (encode (scrub x)))) lines t =
      (.ok (), lines, t.put place (.file (documentText (encode (scrub x))).toUTF8)) := by
    rw [on_part, Store.on_save kind _ hplace hend hentry]
    rfl
  rw [cleanDocument, on_bind, hread]
  show on (part .store (Store.save kind file (encode (scrub x))) >>= _) lines t = _
  rw [on_bind, hwrite]
  exact on_say _

/-- If the scrubbed document is read back from its text, and scrubbing it once more neither changes
nor removes anything, cleaning settles its file. The second time the text that is written is the one
that stands there. -/
theorem settles_cleanDocument (hload : t.load kind d file = .ok x)
    (hback : decodeText d (documentText (encode (scrub x))) = .ok (scrub x))
    (hagain : scrub (scrub x) = scrub x) (hreport : report (scrub x) = ⟨(report x).modules, 0⟩) :
    ∃ t', Settles (cleanDocument kind d encode scrub report file) t t' file
      (documentText (encode (scrub x))) (report x) ∧ t'.load kind d file = .ok (scrub x) := by
  obtain ⟨text, hread, -⟩ := FileTree.load_eq_ok_iff.mp hload
  obtain ⟨bytes, hentry, -⟩ := FileTree.readText_eq_ok_iff.mp hread
  -- the file was there to be read, so its place is known and holds no directory
  obtain ⟨place, hplace, hentry, hend⟩ := FileTree.entry_eq_file_iff.mp hentry
  have hfile : t.entryAt? place ≠ some .directory := by simp [hentry]
  have hne : place ≠ [] := FileTree.ne_nil_of_not_directory hfile
  let new : Entry := .file (documentText (encode (scrub x))).toUTF8
  have hnew : (t.put place new).entryAt? place = some new := by
    rw [FileTree.entryAt?_put t hne, if_pos rfl]
  have hwritten : (t.put place new).readText file = .ok (documentText (encode (scrub x))) :=
    FileTree.readText_put hplace hend hfile
  have hload' : (t.put place new).load kind d file = .ok (scrub x) :=
    FileTree.load_eq_ok_iff.mpr ⟨_, hwritten, hback⟩
  refine ⟨t.put place new, ⟨on_cleanDocument hload hplace hend hfile, hwritten, ?_, ?_⟩, hload'⟩
  · -- nothing else is touched
    intro other hother
    rw [FileTree.entryAt?_put t hne, if_neg]
    rintro rfl
    exact hother hplace
  · -- the second time the same text is written over itself
    intro lines
    have hplace' : (t.put place new).placeOf file = .ok place :=
      FileTree.placeOf_of_directories (FileTree.directories_put_file hfile _) hplace
    have hfile' : (t.put place new).entryAt? place ≠ some .directory := by
      rw [hnew]
      simp [new]
    rw [on_cleanDocument hload' hplace' hend hfile', hreport, hagain,
      FileTree.put_eq_self hne hnew]

end

/-! ### Snapshots and catalogues

The three equations for each kind of document. A number that is a double is the one thing that a
text might not give back, so reading back is a hypothesis on the doubles of the document. -/

/-- Whatever snapshot or catalogue a file holds, and whatever the scrubber: cleaning the file writes
a text that is read as the scrubbed document, and cleaning it a second time leaves it as it is, byte
by byte, and finds no section to remove. Assumed is that the doubles in the document are read back
from their written form. -/
theorem clean_settles (s : Scrubber) (t : FileTree) (file : Path) :
    (∀ d, Session.on (loadSnapshot file) t = (.ok d, t) →
      (∀ x, Number.real x ∈ (s.scrubSnapshot d).toJson.numbers → (Number.real x).ReadsBack) →
      ∃ t', Settles (cleanSnapshot s file) t t' file (documentText (s.scrubSnapshot d).toJson)
          (s.reportSnapshot d) ∧
        Session.on (loadSnapshot file) t' = (.ok (s.scrubSnapshot d), t')) ∧
    (∀ c, Session.on (loadCatalog file) t = (.ok c, t) →
      (∀ x, Number.real x ∈ (s.scrubCatalog c).toJson.numbers → (Number.real x).ReadsBack) →
      ∃ t', Settles (cleanCatalog s file) t t' file (documentText (s.scrubCatalog c).toJson)
          (s.reportCatalog c) ∧
        Session.on (loadCatalog file) t' = (.ok (s.scrubCatalog c), t')) := by
  constructor
  · -- a snapshot: its records are apart and fit again after scrubbing, so it is read back
    intro d hload hreals
    rw [loadSnapshot, Store.on_load] at hload
    have hd : t.load .snapshot (Snapshot.decode .text) file = .ok d := congrArg Prod.fst hload
    obtain ⟨text, -, htext⟩ := FileTree.load_eq_ok_iff.mp hd
    have hrecords : ∀ r ∈ (s.scrubSnapshot d).modules, r.ExtraApart ∧ r.Fits := by
      intro r hr
      obtain ⟨raw, hraw, rfl⟩ := List.mem_map.mp hr
      obtain ⟨hapart, hfits⟩ := Snapshot.fits_of_decodeText htext raw hraw
      exact ⟨s.extraApart_scrubRecord hapart, s.fits_scrubRecord hfits⟩
    have hback := Snapshot.decodeText_documentText hreals hrecords
    obtain ⟨t', hsettles, hload'⟩ := settles_cleanDocument hd hback
      (s.scrubSnapshot_scrubSnapshot d) (s.reportSnapshot_scrubSnapshot d)
    refine ⟨t', hsettles, ?_⟩
    rw [loadSnapshot, Store.on_load, hload']
  · -- a catalogue: the same of its modules, and its report hangs on what was dropped the first
    -- time
    intro c hload hreals
    rw [loadCatalog, Store.on_load] at hload
    have hc : t.load .catalog (Catalog.decode .text) file = .ok c := congrArg Prod.fst hload
    obtain ⟨text, -, htext⟩ := FileTree.load_eq_ok_iff.mp hc
    have hkeepable : ∀ m ∈ (s.scrubCatalog c).modules, m.Keepable := by
      intro m hm
      obtain ⟨raw, hraw, rfl⟩ := List.mem_map.mp hm
      exact s.keepable_scrubMerged (Catalog.keepable_of_decodeText htext raw hraw)
    have hback := (Catalog.decodeText_documentText_iff hreals
      fun m hm => ⟨(hkeepable m hm).apart, (hkeepable m hm).fits⟩).mpr
      fun m hm => (hkeepable m hm).storable
    have hscrubbed := s.scrubbed_scrubCatalog c
    have hreport : s.reportCatalog (s.scrubCatalog c) = ⟨(s.reportCatalog c).modules, 0⟩ := by
      rw [s.reportCatalog_eq hscrubbed]
      exact congrArg (Report.mk · 0) (List.length_map _)
    obtain ⟨t', hsettles, hload'⟩ := settles_cleanDocument hc hback
      (s.scrubCatalog_eq_self hscrubbed) hreport
    refine ⟨t', hsettles, ?_⟩
    rw [loadCatalog, Store.on_load, hload']

/-- A tree with one file, which holds a document. -/
def holding (name : String) (j : Json) : FileTree :=
  (∅ : FileTree).put [name] (.file (documentText j).toUTF8)

/-- A tree that holds the text of a document is read as what the document is decoded as. -/
theorem on_load_holding {α : Type} {kind : DocumentKind} {d : Decoder α} {name : String} {j : Json}
    {x : α} (hplace : (∅ : FileTree).placeOf ⟨name⟩ = .ok [name])
    (hend : Path.endsInDirectory ⟨name⟩ = false) (hnumbers : ∀ n ∈ j.numbers, n.ReadsBack)
    (hx : d (j.within Json.Source.maxDepth) = .ok x) :
    Session.on (Store.load kind d ⟨name⟩) (holding name j) = (.ok x, holding name j) := by
  have hempty : (∅ : FileTree).entryAt? [name] ≠ some .directory := nofun
  have hread : (holding name j).readText ⟨name⟩ = .ok (documentText j) :=
    FileTree.readText_put hplace hend hempty
  have htext : decodeText d (documentText j) = .ok x := by
    rw [documentText, Json.decodeText_indented hnumbers, hx]
  rw [Store.on_load, FileTree.load_eq_ok_iff.mpr ⟨documentText j, hread, htext⟩]

/-- A snapshot as a list of its fields, with a name that stands for another, nulls, a field that has
no place, students and a person. -/
def listedSnapshot : Json :=
  .arr [.null, .str "2025/6", .str "MTH", .null, .arr [.obj [
    ("year_of_study", .str "Year 1"), ("rooms", .arr [.num (.real (.zero true)), .str "Ann"]),
    ("module_code", .str "MTH1"), ("notes", .null), ("module_rules", .null),
    ("content_sections", .obj [("Students", .str "Bob"), ("Aims", .str "ask Ann")]),
    ("room", .str "Ann 2")]]]

/-- The snapshot that the list is read as. -/
def readSnapshot : Snapshot :=
  ⟨"", ⟨"2025/6"⟩, "MTH", none, [{ Record.blank "MTH1" "Year 1" with
    moduleRules := .ofJson .null
    contentSections := .ofList [("Aims", "ask Ann"), ("Students", "Bob")]
    extra := .ofList [("room", .text "Ann 2"),
      ("rooms", .ofJson (.arr [.num (.real (.zero true)), .str "Ann"]))] }]⟩

/-- A catalogue whose members stand in another order than they are written in. -/
def mixedCatalog : Json :=
  .obj [("modules", .arr [.obj [("rules_by_year", .obj [("2025/6", .str "ask Ann")]),
      ("full_detail_text", .str "Ann"), ("available_years", .arr [.str "2025/6"]),
      ("weight", .num (.real (.zero true))), ("module_code", .str "MTH1"), ("year", .str "Year 1"),
      ("content_sections", .obj [("Students", .str "Bob")])]]),
    ("source", .null), ("school", .str "MTH"), ("academic_years", .arr [.str "2025/6"]),
    ("course", .str "")]

/-- The catalogue that the members are read as. -/
def readCatalog : Catalog :=
  ⟨"", "MTH", [⟨"2025/6"⟩], [⟨{ Record.blank "MTH1" "Year 1" with
      contentSections := .ofList [("Students", "Bob")]
      extra := .ofList [("full_detail_text", .text "Ann"),
        ("weight", .ofJson (.num (.real (.zero true))))] },
    [⟨"2025/6"⟩], some (.ofList [(⟨"2025/6"⟩, .text "ask Ann")])⟩]⟩

/-- The list is read as the snapshot. -/
theorem on_loadSnapshot_listed :
    Session.on (loadSnapshot ⟨"a"⟩) (holding "a" listedSnapshot) =
      (.ok readSnapshot, holding "a" listedSnapshot) := by
  have hread : Snapshot.decode .text (listedSnapshot.within Json.Source.maxDepth) =
      .ok readSnapshot := by
    decide +kernel
  exact on_load_holding rfl (by decide) (by decide +kernel) hread

/-- The members are read as the catalogue, in whatever order they stand. -/
theorem on_loadCatalog_mixed :
    Session.on (loadCatalog ⟨"c"⟩) (holding "c" mixedCatalog) =
      (.ok readCatalog, holding "c" mixedCatalog) := by
  have hread : Catalog.decode .text (mixedCatalog.within Json.Source.maxDepth) =
      .ok readCatalog := by
    decide +kernel
  exact on_load_holding rfl (by decide) (by decide +kernel) hread

/-- Cleaning either of them removes the section of the students, once. -/
theorem clean_settles_listed :
    let s : Scrubber := ⟨["Ann".toList], []⟩
    let a := holding "a" listedSnapshot
    let c := holding "c" mixedCatalog
    (Session.on (loadSnapshot ⟨"a"⟩) a = (.ok readSnapshot, a) ∧
      Number.real (.zero true) ∈ (s.scrubSnapshot readSnapshot).toJson.numbers ∧
      ∃ a', Settles (cleanSnapshot s ⟨"a"⟩) a a' ⟨"a"⟩
          (documentText (s.scrubSnapshot readSnapshot).toJson) ⟨1, 1⟩ ∧
        Session.on (loadSnapshot ⟨"a"⟩) a' = (.ok (s.scrubSnapshot readSnapshot), a')) ∧
    (Session.on (loadCatalog ⟨"c"⟩) c = (.ok readCatalog, c) ∧
      Number.real (.zero true) ∈ (s.scrubCatalog readCatalog).toJson.numbers ∧
      ∃ c', Settles (cleanCatalog s ⟨"c"⟩) c c' ⟨"c"⟩
          (documentText (s.scrubCatalog readCatalog).toJson) ⟨1, 1⟩ ∧
        Session.on (loadCatalog ⟨"c"⟩) c' = (.ok (s.scrubCatalog readCatalog), c')) := by
  intro s a c
  refine ⟨⟨on_loadSnapshot_listed, by decide +kernel, ?_⟩,
    on_loadCatalog_mixed, by decide +kernel, ?_⟩
  · -- the number `-0.0` is written and read back as such
    have hnumbers : ∀ n ∈ (s.scrubSnapshot readSnapshot).toJson.numbers, n.ReadsBack := by
      decide +kernel
    have hreport : s.reportSnapshot readSnapshot = ⟨1, 1⟩ := by decide +kernel
    rw [← hreport]
    exact (clean_settles s _ _).1 readSnapshot on_loadSnapshot_listed fun x hx => hnumbers _ hx
  · have hnumbers : ∀ n ∈ (s.scrubCatalog readCatalog).toJson.numbers, n.ReadsBack := by
      decide +kernel
    have hreport : s.reportCatalog readCatalog = ⟨1, 1⟩ := by decide +kernel
    rw [← hreport]
    exact (clean_settles s _ _).2 readCatalog on_loadCatalog_mixed fun x hx => hnumbers _ hx

end Prospectus.Command
