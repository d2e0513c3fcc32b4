import Prospectus.Proofs.Catalog.Stored
import Prospectus.Proofs.Command.Run
import Prospectus.Proofs.Rebuild.Stored
import Prospectus.Proofs.Store.Discovery

/-!
# Rebuilding twice

A rebuild reads all it needs and then writes one file, so what it does is told by the settings, the
snapshots that it found and the catalogue that it made of them (`Rebuilds`). The name of that file
and the names of snapshots are set apart from each other. As long as the catalogue does not stand
in the directory of the snapshots under the name of one, the next rebuild reads the same and writes
the same (`Rebuilds.again`). Under such a name it is found as a snapshot, which it cannot be read as
(`Rebuilds.exists_unreadable`): nothing but its name keeps it from being picked up.
-/

namespace Prospectus.Command

open Json (Value decodeText)
open Run (on on_bind)
open Scrub (Scrubber)
open Store (FileTree Path Session StoreError documentText isSnapshotName)

/-! ### Settings of a tree

The layers are files of the tree, so the settings of a rebuild are known from the tree and the
names of the layers. They stay the same as long as these files read the same. -/

/-- The merged layers that some files of a tree say. -/
def mergedOf (t : FileTree) (layers : List Path) : Except SettingsError Value := do
  let texts ← layers.mapM fun layer =>
    (t.readText layer).mapError fun _ => SettingsError.unreadableFile layer.text
  Settings.mergedOfTexts texts

/-- Merging the layers reads the tree and leaves it alone. -/
theorem on_mergedOfFiles (t : FileTree) (layers : List Path) :
    Session.on (Settings.mergedOfFiles layers) t = (mergedOf t layers, t) := by
  have hlayer : ∀ layer ∈ layers, Session.on (Settings.layerText layer) t =
      ((t.readText layer).mapError fun _ => .unreadableFile layer.text, t) := by
    intro layer _
    have hread : Session.on (liftM (Store.FileAccess.readText layer : Session _) :
        ExceptT SettingsError Session _) t = (.ok (t.readText layer), t) := rfl
    rw [Settings.layerText, Session.on_bind, hread]
    cases t.readText layer <;> rfl
  rw [Settings.mergedOfFiles, Session.on_bind, Store.on_mapM hlayer, mergedOf]
  cases layers.mapM fun layer => (t.readText layer).mapError fun _ =>
      SettingsError.unreadableFile layer.text with
  | error e => rfl
  | ok texts => rfl

/-- The merged layers and the settings that they say. -/
def settingsOf (t : FileTree) (layers : List Path) : Except CommandError (Value × Settings) := do
  let merged ← (mergedOf t layers).mapError .settings
  let settings ← (Settings.ofValue merged).mapError .settings
  return (merged, settings)

/-- Reading the settings reads the tree and leaves it alone. -/
theorem on_readSettings (t : FileTree) (layers : List Path) (lines : List String) :
    (readSettings layers).on lines t = (settingsOf t layers, lines, t) := by
  rw [readSettings, on_bind, on_part, on_mergedOfFiles, settingsOf]
  cases mergedOf t layers with
  | error e => rfl
  | ok merged =>
    show on (pureStep .settings (Settings.ofValue merged) >>= _) lines t =
      ((Settings.ofValue merged).mapError _ >>= _, lines, t)
    rw [on_bind, on_pureStep]
    cases Settings.ofValue merged <;> rfl

/-- Only the files of the layers count for the settings. -/
theorem settingsOf_congr {t t' : FileTree} {layers : List Path}
    (h : ∀ layer ∈ layers, t'.readText layer = t.readText layer) :
    settingsOf t' layers = settingsOf t layers := by
  have hmerged : mergedOf t' layers = mergedOf t layers := by
    rw [mergedOf, mergedOf]
    congr 1
    refine mapM_congr fun layer hlayer => ?_
    rw [h layer hlayer]
  rw [settingsOf, settingsOf, hmerged]

/-! ### The steps of a rebuild

Reading does not change the tree, so the steps that read can be told as functions of the tree, and
`catalogOf` is all of them in one. What is left of a rebuild after that is to write one file and to
say what was done. -/

section

variable [Pattern.Dialect]

/-- The catalogue of some files of a tree, and the outcome that it is made from. -/
def catalogOf (t : FileTree) (settings : Settings) (files : List Path) :
    Except CommandError (Catalog × Outcome) := do
  let captures ← (files.mapM (t.load .snapshot (Snapshot.decode .text))).mapError .store
  let scrubber ← (Scrubber.ofRules settings.scrub).mapError fun e => .pipeline (.rules e)
  (rebuildCatalog settings.catalog scrubber captures).mapError .pipeline

/-- What a rebuild does once it has its settings and has found some files. -/
def rebuildFrom (merged : Value) (settings : Settings) (out : Path) (files : List Path) :
    Run Session Unit := do
  let captures ← part .store (Store.loadSnapshots files)
  let scrubber ← readScrubber settings
  let (c, o) ← pureStep .pipeline (rebuildCatalog settings.catalog scrubber captures)
  part .store (Store.saveCatalog out c)
  (rebuildLines files.length merged c o out).forM say

variable {t t' : FileTree} {layers : List Path} {directory? : Option Path} {merged : Value}
  {settings : Settings} {out : Path} {files : List Path} {lines lines' : List String}

/-- All is read before anything is written. -/
theorem on_rebuildFrom (merged : Value) (settings : Settings) (out : Path) (files : List Path)
    (lines : List String) (t : FileTree) : (rebuildFrom merged settings out files).on lines t =
      match catalogOf t settings files with
      | .error e => (.error e, lines, t)
      | .ok (c, o) =>
        match Session.on (Store.saveCatalog out c) t with
        | (.error e, t') => (.error (.store e), lines, t')
        | (.ok (), t') => (.ok (), lines ++ rebuildLines files.length merged c o out, t') := by
  rw [rebuildFrom, on_bind, on_part, Store.on_loadSnapshots]
  -- the stages of a rebuild one by one: an error of a stage is the error of the whole
  cases hcaptures : files.mapM (t.load .snapshot (Snapshot.decode .text)) with
  | error e =>
    rw [catalogOf, hcaptures]
    rfl
  | ok captures =>
    show on (readScrubber settings >>= _) lines t = _
    rw [on_bind, readScrubber, on_pureStep]
    cases hscrubber : Scrubber.ofRules settings.scrub with
    | error e =>
      rw [catalogOf, hcaptures, hscrubber]
      rfl
    | ok scrubber =>
      have hcatalog : catalogOf t settings files =
          (rebuildCatalog settings.catalog scrubber captures).mapError .pipeline := by
        rw [catalogOf, hcaptures, hscrubber]
        rfl
      show on (pureStep .pipeline _ >>= _) lines t = _
      rw [on_bind, on_pureStep, hcatalog]
      -- what is left is to write the catalogue and to say what was done
      cases rebuildCatalog settings.catalog scrubber captures with
      | error e => rfl
      | ok made =>
        show on (part .store (Store.saveCatalog out made.1) >>= _) lines t = _
        rw [on_bind, on_part]
        simp only [Except.mapError]
        rcases Session.on (Store.saveCatalog out made.1) t with ⟨_ | _, t'⟩
        · rfl
        · exact on_forM_say _

/-- A rebuild whose settings can be read looks for snapshots, and goes on if there are some. -/
theorem on_runRebuild (hsettings : settingsOf t layers = .ok (merged, settings))
    (out? : Option Path) : (runRebuild layers directory? out?).on lines t =
      match t.discover (directoryOf settings directory?) settings.snapshots.filePrefix with
      | .error e => (.error (.store e), lines, t)
      | .ok files =>
        if files.isEmpty then (.ok (), lines ++ ["no_data=true"], t)
        else
          (rebuildFrom merged settings
            (out?.getD (catalogFile settings (directoryOf settings directory?)))
            files).on lines t := by
  rw [runRebuild, on_bind, on_readSettings, hsettings]
  show on (part .store (Store.discover _ _) >>= _) lines t = _
  rw [on_bind, on_part, Store.on_discover]
  cases t.discover (directoryOf settings directory?) settings.snapshots.filePrefix with
  | error e => rfl
  | ok files =>
    -- without a snapshot there is nothing to do, and that is said
    cases files with
    | nil => rfl
    | cons file files => rfl

/-- A rebuild that wrote a catalogue: what it read, and what it made of it. Each field is a step of
the rebuild that succeeded, in the order of the steps. -/
structure Rebuilds (t t' : FileTree) (layers : List Path) (directory : Path) (merged : Value)
    (settings : Settings) (files : List Path) (c : Catalog) (o : Outcome) : Prop where
  reads : settingsOf t layers = .ok (merged, settings)
  finds : t.discover directory settings.snapshots.filePrefix = .ok files
  nonempty : files ≠ []
  makes : catalogOf t settings files = .ok (c, o)
  saves : Session.on (Store.saveCatalog (catalogFile settings directory) c) t = (.ok (), t')

/-- How a rebuild that wrote a catalogue ended, and what it printed. -/
theorem Rebuilds.on_runRebuild {c : Catalog} {o : Outcome}
    (h : Rebuilds t t' layers (directoryOf settings directory?) merged settings files c o) :
    (runRebuild layers directory? none).on lines t = (.ok (), lines ++ rebuildLines files.length
      merged c o (catalogFile settings (directoryOf settings directory?)), t') := by
  have hne : ¬ files.isEmpty = true := by simpa using h.nonempty
  rw [Command.on_runRebuild h.reads, h.finds]
  simp only [if_neg hne, Option.getD_none, on_rebuildFrom, h.makes, h.saves]

/-- A rebuild that succeeds either finds no snapshot or writes a catalogue. -/
theorem exists_rebuilds_of_on_runRebuild
    (h : (runRebuild layers directory? none).on lines t = (.ok (), lines', t'))
    (hdata : lines' ≠ lines ++ ["no_data=true"]) :
    ∃ merged settings files c o,
      Rebuilds t t' layers (directoryOf settings directory?) merged settings files c o ∧
      lines' = lines ++ rebuildLines files.length merged c o
        (catalogFile settings (directoryOf settings directory?)) := by
  -- every earlier end of the run is an error or reports no data, and both are excluded
  cases hsettings : settingsOf t layers with
  | error e =>
    rw [runRebuild, on_bind, on_readSettings, hsettings] at h
    cases h
  | ok read =>
    obtain ⟨merged, settings⟩ := read
    rw [Command.on_runRebuild hsettings] at h
    cases hfiles : t.discover (directoryOf settings directory?) settings.snapshots.filePrefix with
    | error e =>
      rw [hfiles] at h
      cases h
    | ok files =>
      simp only [hfiles, Option.getD_none] at h
      split_ifs at h with hempty
      · cases h
        exact absurd rfl hdata
      · rw [on_rebuildFrom] at h
        cases hmade : catalogOf t settings files with
        | error e =>
          rw [hmade] at h
          cases h
        | ok made =>
          obtain ⟨c, o⟩ := made
          rw [hmade] at h
          cases hsave : Session.on (Store.saveCatalog
              (catalogFile settings (directoryOf settings directory?)) c) t with
          | mk result t₁ =>
            simp only [hsave] at h
            cases result with
            | error e => cases h
            | ok u =>
              -- so the run wrote its catalogue, and all that it read on the way is what `Rebuilds`
              -- records
              cases h
              exact ⟨merged, settings, files, c, o,
                ⟨hsettings, hfiles, by simpa using hempty, hmade, hsave⟩, rfl⟩

end

/-! ### Where the catalogue stands

Two files meet if their paths lead to one place, and paths can be spelled in many ways. So the
question whether a catalogue is taken for a snapshot is asked of places: is the file of the
catalogue in the directory of the snapshots, under a name that fits the pattern? If the name in the
settings has no directories in it, that is a question about the name alone. -/

/-- The catalogue stands in the directory of the snapshots, under the name of one. This is said of
places, since a path may lead into the directory in a roundabout way. -/
def NamedAsSnapshot (t : FileTree) (directory out : Path) (filePrefix : String) : Prop :=
  ∃ place name, t.placeOf directory = .ok place ∧ isSnapshotName filePrefix name = true ∧
    t.placeOf out = .ok (place ++ [name])

section

variable [Pattern.Dialect] {t t' : FileTree} {layers : List Path} {directory : Path}
  {merged : Value} {settings : Settings} {files : List Path} {c : Catalog} {o : Outcome}

/-- A rebuild saves its catalogue at some place, and its directory has one, before and after. -/
theorem Rebuilds.exists_places (h : Rebuilds t t' layers directory merged settings files c o) :
    ∃ saved place, t.Saved t' (catalogFile settings directory) (documentText c.toJson) saved ∧
      t.placeOf directory = .ok place ∧ t.entryAt? place = some .directory ∧
      t'.placeOf directory = .ok place := by
  obtain ⟨saved, hsaved⟩ := Store.saved_of_on_save h.saves
  obtain ⟨place, hplace, hdir⟩ := Store.exists_place_of_discover h.finds h.nonempty
  exact ⟨saved, place, hsaved, hplace, hdir,
    FileTree.placeOf_of_directories hsaved.directories hplace⟩

/-- A catalogue whose file is a name in the directory is named as a snapshot if that name is one. So
for such settings the question can be decided without a tree. -/
theorem Rebuilds.namedAsSnapshot_iff (h : Rebuilds t t' layers directory merged settings files c o)
    (hname : Path.IsName settings.catalog.outputFile) {filePrefix : String} :
    NamedAsSnapshot t' directory (catalogFile settings directory) filePrefix ↔
      isSnapshotName filePrefix settings.catalog.outputFile = true := by
  obtain ⟨saved, place, hsaved, hplace, hdir, hplace'⟩ := h.exists_places
  have hout : t'.placeOf (catalogFile settings directory) =
      .ok (place ++ [settings.catalog.outputFile]) :=
    FileTree.placeOf_join hplace' (hsaved.directories place hdir) hname
  constructor
  · rintro ⟨_, name, hp, hmatch, hplaced⟩
    cases hplace'.symm.trans hp
    have heq : settings.catalog.outputFile = name := by
      simpa using Except.ok.inj (hout.symm.trans hplaced)
    rwa [heq]
  · intro hmatch
    exact ⟨place, _, hplace', hmatch, hout⟩

/-- The snapshots that the catalogue was not written over are as they were. -/
theorem Rebuilds.entry_eq (h : Rebuilds t t' layers directory merged settings files c o)
    (ht : t.Proper) : ∀ f ∈ files, t'.placeOf f ≠ t'.placeOf (catalogFile settings directory) →
      t'.entry f = t.entry f := by
  obtain ⟨saved, place, hsaved, hplace, hdir, -⟩ := h.exists_places
  intro f hf hne
  obtain ⟨name, hname, rfl⟩ := (Store.mem_of_discover ht hplace hdir h.finds).mp hf
  apply hsaved.entry_join_eq ht hplace hdir hname
  rintro rfl
  have hjoin := (hname.entry_join ht hplace hdir).1
  exact hne ((FileTree.placeOf_of_directories hsaved.directories hjoin).trans hsaved.placeOf.symm)

/-- A catalogue that is not named as a snapshot leaves alone what is found, so the next rebuild
reads the same and writes the same. The file that it writes holds that text already, so the tree
stays as it is. -/
theorem Rebuilds.again (h : Rebuilds t t' layers directory merged settings files c o)
    (ht : t.Proper) (hlayers : ∀ layer ∈ layers, t'.readText layer = t.readText layer)
    (hnot : ¬ NamedAsSnapshot t' directory (catalogFile settings directory)
      settings.snapshots.filePrefix) :
    Rebuilds t' t' layers directory merged settings files c o ∧
      ∀ f ∈ files, t'.placeOf f ≠ t'.placeOf (catalogFile settings directory) := by
  obtain ⟨saved, place, hsaved, hplace, hdir, hplace'⟩ := h.exists_places
  have ht' : t'.Proper := Store.proper_of_on_save ht h.saves
  -- a catalogue at the place of a snapshot would be named as one
  have hfree : ∀ name, isSnapshotName settings.snapshots.filePrefix name = true →
      place ++ [name] ≠ saved := by
    rintro name hname rfl
    exact hnot ⟨place, name, hplace', hname, hsaved.placeOf⟩
  have hfound : ∀ f ∈ files, t'.placeOf f ≠ t'.placeOf (catalogFile settings directory) := by
    intro f hf
    obtain ⟨name, hname, rfl⟩ := (Store.mem_of_discover ht hplace hdir h.finds).mp hf
    have hjoin := (hname.entry_join ht hplace hdir).1
    rw [FileTree.placeOf_of_directories hsaved.directories hjoin, hsaved.placeOf]
    exact fun heq => hfree name hname.1 (Except.ok.inj heq)
  -- the same settings, the same files with the same texts, and the same bytes written over
  -- themselves
  refine ⟨⟨?_, ?_, h.nonempty, ?_, ?_⟩, hfound⟩
  · rw [settingsOf_congr hlayers, h.reads]
  · rw [hsaved.discover_eq ht ht' hplace hdir hfree, h.finds]
  · rw [← h.makes, catalogOf, catalogOf]
    congr 2
    exact mapM_congr fun f hf => FileTree.load_congr (h.entry_eq ht f hf (hfound f hf))
  · exact hsaved.on_save .catalog

/-- All files that were found could be read. -/
theorem Rebuilds.exists_load (h : Rebuilds t t' layers directory merged settings files c o) :
    ∀ f ∈ files, ∃ d, t.load .snapshot (Snapshot.decode .text) f = .ok d := by
  intro f hf
  obtain ⟨captures, hcaptures, -⟩ := bind_eq_ok_iff.mp h.makes
  obtain ⟨d, -, hd⟩ := exists_mem_of_mapM_eq_ok (mapError_eq_ok_iff.mp hcaptures) hf
  exact ⟨d, hd⟩

/-- A catalogue that is named as a snapshot is found among the snapshots, and is the one that cannot
be read as a snapshot. -/
theorem Rebuilds.exists_unreadable (h : Rebuilds t t' layers directory merged settings files c o)
    (ht : t.Proper) {place : List String} {name : String} (hp : t'.placeOf directory = .ok place)
    (hname : isSnapshotName settings.snapshots.filePrefix name = true)
    (hout : t'.placeOf (catalogFile settings directory) = .ok (place ++ [name])) :
    ∃ files', t'.discover directory settings.snapshots.filePrefix = .ok files' ∧
      directory.join ⟨name⟩ ∈ files' ∧
      t'.placeOf (directory.join ⟨name⟩) = t'.placeOf (catalogFile settings directory) ∧
      ((∀ x, Number.real x ∈ c.toJson.numbers → (Number.real x).ReadsBack) →
        ∃ e, files'.mapM (t'.load .snapshot (Snapshot.decode .text)) =
          .error (.decoding .snapshot (directory.join ⟨name⟩) e)) := by
  obtain ⟨saved, place, hsaved, hplace, hdir, hplace'⟩ := h.exists_places
  have ht' : t'.Proper := Store.proper_of_on_save ht h.saves
  have hdir' := hsaved.directories place hdir
  cases hplace'.symm.trans hp
  obtain rfl : saved = place ++ [name] := Except.ok.inj (hsaved.placeOf.symm.trans hout)
  have hat : Store.SnapshotAt t' place settings.snapshots.filePrefix name :=
    ⟨hname, _, hsaved.entry⟩
  -- the rebuild found its snapshots, so the dialect has room for the pattern of their names
  have hfits : Store.PrefixFits settings.snapshots.filePrefix :=
    Store.fits_of_discover (Store.contains_of_directory hplace hdir) h.finds
  obtain ⟨names, hnames, -⟩ := Store.exists_names_of_discover ht' hplace' hdir' hfits
  have hfound : directory.join ⟨name⟩ ∈ names.map fun name => directory.join ⟨name⟩ :=
    (Store.mem_of_discover ht' hplace' hdir' hnames).mpr ⟨name, hat, rfl⟩
  obtain ⟨hjoin, bytes, hbytes, hentry⟩ := hat.entry_join ht' hplace' hdir'
  refine ⟨_, hnames, hfound, ?_, fun hreals => ?_⟩
  · -- the file that is found is the catalogue
    rw [hjoin, hout]
  · -- and reading it as a snapshot fails, whatever is in the catalogue
    obtain ⟨e, he⟩ := Catalog.exists_error_of_documentText hreals
    cases hbytes.symm.trans hsaved.entry
    have htext : t'.readText (directory.join ⟨name⟩) = .ok (documentText c.toJson) :=
      FileTree.readText_eq_ok_iff.mpr ⟨_, hentry, FileTree.fromUTF8?_toUTF8 _⟩
    refine ⟨e, mapM_eq_error hfound (FileTree.load_eq_error htext he) ?_⟩
    -- all others were read by the rebuild
    intro f hf hne
    obtain ⟨other, hother, rfl⟩ := (Store.mem_of_discover ht' hplace' hdir' hnames).mp hf
    have hfree : place ++ [other] ≠ place ++ [name] := by
      intro heq
      obtain rfl : other = name := by simpa using heq
      exact hne rfl
    have hother := (hsaved.snapshotAt_iff hfree).mp hother
    have hold := (Store.mem_of_discover ht hplace hdir h.finds).mpr ⟨other, hother, rfl⟩
    rw [FileTree.load_congr (hsaved.entry_join_eq ht hplace hdir hother hfree)]
    exact h.exists_load _ hold

/-- A rebuild that cannot read what it finds fails, and leaves the tree as it is. -/
theorem on_runRebuild_of_unreadable {directory? : Option Path} {lines : List String}
    {e : StoreError} (hsettings : settingsOf t layers = .ok (merged, settings))
    (hfiles : t.discover (directoryOf settings directory?) settings.snapshots.filePrefix =
      .ok files)
    (hload : files.mapM (t.load .snapshot (Snapshot.decode .text)) = .error e) :
    (runRebuild layers directory? none).on lines t = (.error (.store e), lines, t) := by
  have hne : ¬ files.isEmpty = true := by
    intro hempty
    rw [List.isEmpty_iff.mp hempty] at hload
    cases hload
  have hcatalog : catalogOf t settings files = .error (.store e) := by
    rw [catalogOf, hload]
    rfl
  rw [on_runRebuild hsettings, hfiles]
  simp only [if_neg hne, on_rebuildFrom, hcatalog]

end

/-! ### Two rebuilds

If the catalogue stands apart, the second rebuild finds the same files with the same contents. If
it does not, it is one of the files that are found, and the only one that is no snapshot; so the
second rebuild fails at it, and leaves it there for the third one. -/

/-- After a rebuild that wrote a catalogue, and over no layer of the settings, all depends on where
the catalogue stands; for a file name without directories, on the name alone. If it is not named as
a snapshot, the same snapshots are found as before, the catalogue is none of them, and a second
rebuild ends as the first and leaves the tree as it is. If it is, it is one of the snapshots that
are found, and a second rebuild fails at it. -/
theorem rebuild_twice [Pattern.Dialect] {layers : List Path} {directory? : Option Path}
    {t t' : FileTree} {lines : List String} (ht : t.Proper)
    (h : (runRebuild layers directory? none).on [] t = (.ok (), lines, t'))
    (hdata : lines ≠ ["no_data=true"])
    (hlayers : ∀ layer ∈ layers, t'.readText layer = t.readText layer) :
    ∃ merged settings files c, (readSettings layers).on [] t = (.ok (merged, settings), [], t) ∧
      let directory := directoryOf settings directory?
      let filePrefix := settings.snapshots.filePrefix
      let out := catalogFile settings directory
      Session.on (Store.discover directory filePrefix) t = (.ok files, t) ∧
      t'.readText out = .ok (documentText (Catalog.toJson c)) ∧
      (∀ f ∈ files, t'.placeOf f ≠ t'.placeOf out → t'.entry f = t.entry f) ∧
      (Path.IsName settings.catalog.outputFile → (NamedAsSnapshot t' directory out filePrefix ↔
        isSnapshotName filePrefix settings.catalog.outputFile = true)) ∧
      (¬ NamedAsSnapshot t' directory out filePrefix →
        Session.on (Store.discover directory filePrefix) t' = (.ok files, t') ∧
        (∀ f ∈ files, t'.placeOf f ≠ t'.placeOf out) ∧
        (runRebuild layers directory? none).on [] t' = (.ok (), lines, t')) ∧
      (NamedAsSnapshot t' directory out filePrefix →
        ∃ files' f, Session.on (Store.discover directory filePrefix) t' = (.ok files', t') ∧
          f ∈ files' ∧ t'.placeOf f = t'.placeOf out ∧
          ((∀ x, Number.real x ∈ c.toJson.numbers → (Number.real x).ReadsBack) →
            ∃ e, (runRebuild layers directory? none).on [] t' =
              (.error (.store (.decoding .snapshot f e)), [], t'))) := by
  obtain ⟨merged, settings, files, c, o, hrebuilds, rfl⟩ := exists_rebuilds_of_on_runRebuild h hdata
  obtain ⟨saved, hsaved⟩ := Store.saved_of_on_save hrebuilds.saves
  refine ⟨merged, settings, files, c, ?_, ?_, hsaved.readText, hrebuilds.entry_eq ht,
    fun hname => ?_, fun hnot => ?_, ?_⟩
  · rw [on_readSettings, hrebuilds.reads]
  · rw [Store.on_discover, hrebuilds.finds]
  · -- whether the catalogue is found as a snapshot is a matter of its name
    exact hrebuilds.namedAsSnapshot_iff hname
  · -- it is not: the second run sees what the first one saw
    obtain ⟨hagain, hfound⟩ := hrebuilds.again ht hlayers hnot
    refine ⟨?_, hfound, hagain.on_runRebuild⟩
    rw [Store.on_discover, hagain.finds]
  · -- it is: the second run meets the catalogue among its snapshots and stops there
    rintro ⟨place, name, hplace, hmatch, hout⟩
    obtain ⟨files', hfiles', hf, hsame, hfail⟩ := hrebuilds.exists_unreadable ht hplace hmatch hout
    refine ⟨files', _, ?_, hf, hsame, fun hreals => ?_⟩
    · rw [Store.on_discover, hfiles']
    · obtain ⟨e, he⟩ := hfail hreals
      have hreads := (settingsOf_congr hlayers).trans hrebuilds.reads
      exact ⟨e, on_runRebuild_of_unreadable hreads hfiles' he⟩

/-- Settings that name the file of the catalogue. -/
def namingText (outputFile : String) : String := "catalog:\n  output_file: " ++ outputFile ++ "\n"

/-- A directory with one capture in it, beside a file with these settings. -/
def captured (outputFile : String) : FileTree :=
  (((∅ : FileTree).put ["c.yaml"]
    (.file (namingText outputFile).toUTF8)).put ["data"] .directory).put
    ["data", "uea_modules_2025_6.json"] (.file (documentText (captureTree "2025/6" [])).toUTF8)

/-- What the text of the settings is read as, as a tree and as settings. -/
def namingLayers (outputFile : String) : Value :=
  .ofJson (.obj [("catalog", .obj [("output_file", .str outputFile)])])

/-- The settings that the text says, with everything else left at its default. -/
def namingSettings (outputFile : String) : Settings := { catalog := { outputFile } }

/-- The capture, and the catalogue of it. -/
def blankCapture : Snapshot := ⟨"", ⟨"2025/6"⟩, "", none, [Record.blank "MTH1" "Year 1"]⟩

/-- The catalogue has the module of the capture and its year. -/
def blankCatalog : Catalog :=
  ⟨"", "", [⟨"2025/6"⟩], [⟨Record.blank "MTH1" "Year 1", [⟨"2025/6"⟩], none⟩]⟩

/-- The tree is one that can be made. -/
theorem proper_captured (outputFile : String) : (captured outputFile).Proper := by
  have hempty := FileTree.proper_empty
  refine ((hempty.put (by decide) ?_ _).put (by decide) ?_ _).put (by decide) ?_ _
  · decide
  · decide
  · decide

/-- The capture can be read. -/
theorem load_captured (outputFile : String) :
    (captured outputFile).load .snapshot (Snapshot.decode .text)
      ⟨"data/uea_modules_2025_6.json"⟩ = .ok blankCapture := by
  have htext : decodeText (Snapshot.decode .text) (documentText (captureTree "2025/6" [])) =
      .ok blankCapture :=
    decodeText_captureTree (by decide +kernel) (by decide +kernel)
  have hread : (captured outputFile).readText ⟨"data/uea_modules_2025_6.json"⟩ =
      .ok (documentText (captureTree "2025/6" [])) :=
    FileTree.readText_put rfl (by decide) nofun
  exact FileTree.load_eq_ok_iff.mpr ⟨_, hread, htext⟩

/-- The catalogue is what a rebuild makes of the capture. -/
theorem catalogOf_captured (outputFile : String) :
    catalogOf (captured outputFile) (namingSettings outputFile) [⟨"data/uea_modules_2025_6.json"⟩] =
      .ok (blankCatalog, .ofWalk .canonical [blankCapture]) := by
  have hmakes : rebuildCatalog {} ⟨[], []⟩ [blankCapture] =
      .ok (blankCatalog, .ofWalk .canonical [blankCapture]) := by
    decide +kernel
  rw [catalogOf, List.mapM_cons, load_captured]
  exact congrArg (Except.mapError CommandError.pipeline) hmakes

/-- The catalogue is written under its name in the settings, and not over them. -/
theorem exists_rebuilds_captured {outputFile : String} (hname : Path.IsName outputFile)
    (hreads : settingsOf (captured outputFile) [⟨"c.yaml"⟩] =
      .ok (namingLayers outputFile, namingSettings outputFile))
    (hfinds : (captured outputFile).discover ⟨"data"⟩ "uea_modules_" =
      .ok [⟨"data/uea_modules_2025_6.json"⟩]) :
    ∃ t' lines, Rebuilds (captured outputFile) t' [⟨"c.yaml"⟩] ⟨"data"⟩ (namingLayers outputFile)
        (namingSettings outputFile) [⟨"data/uea_modules_2025_6.json"⟩] blankCatalog
        (.ofWalk .canonical [blankCapture]) ∧
      (runRebuild [⟨"c.yaml"⟩] none none).on [] (captured outputFile) = (.ok (), lines, t') ∧
      lines ≠ ["no_data=true"] ∧
      t'.readText ⟨"c.yaml"⟩ = (captured outputFile).readText ⟨"c.yaml"⟩ ∧
      t'.placeOf ⟨"data"⟩ = .ok ["data"] ∧
      t'.placeOf (Path.join ⟨"data"⟩ ⟨outputFile⟩) = .ok ["data", outputFile] := by
  have hdir : (captured outputFile).placeOf ⟨"data"⟩ = .ok ["data"] := rfl
  have hplace := FileTree.placeOf_join hdir rfl hname
  have hend : (Path.join ⟨"data"⟩ ⟨outputFile⟩).endsInDirectory = false :=
    Path.endsInDirectory_join (by decide) hname
  have hentry : (captured outputFile).entryAt? ["data", outputFile] ≠ some .directory := by
    rw [captured, FileTree.entryAt?_put _ (by decide)]
    split_ifs <;> nofun
  have hsaves := Store.on_save .catalog blankCatalog.toJson hplace hend hentry
  obtain ⟨saved, hsaved⟩ := Store.saved_of_on_save hsaves
  have hdir' := FileTree.placeOf_of_directories hsaved.directories hdir
  have hplace' := FileTree.placeOf_of_directories hsaved.directories hplace
  have hrebuilds : Rebuilds (captured outputFile) _ [⟨"c.yaml"⟩]
      (directoryOf (namingSettings outputFile) none) (namingLayers outputFile)
      (namingSettings outputFile) _ blankCatalog _ :=
    ⟨hreads, hfinds, by decide, catalogOf_captured outputFile, hsaves⟩
  -- the run as it was, and the settings file, which is not where the catalogue went
  refine ⟨_, _, hrebuilds, hrebuilds.on_runRebuild, ?_, ?_, hdir', hplace'⟩
  · simp [rebuildLines]
  · have hlayer : (captured outputFile).entry ⟨"c.yaml"⟩ =
        .ok (.file (namingText outputFile).toUTF8) :=
      rfl
    have hne : (captured outputFile).placeOf ⟨"c.yaml"⟩ ≠ .ok saved := by
      cases hsaved.placeOf.symm.trans hplace'
      show Except.ok ["c.yaml"] ≠ Except.ok ["data", outputFile]
      simp
    exact FileTree.readText_congr ((hsaved.entry_eq hlayer hne).trans hlayer.symm)

/-- Under a name of its own, the catalogue is written twice alike. -/
theorem rebuild_twice_named_apart :
    let run := (runRebuild [⟨"c.yaml"⟩] none none : Run Session Unit)
    let t := captured "all.json"
    t.Proper ∧ ∃ lines t', run.on [] t = (.ok (), lines, t') ∧ lines ≠ ["no_data=true"] ∧
      t'.readText ⟨"c.yaml"⟩ = t.readText ⟨"c.yaml"⟩ ∧ run.on [] t' = (.ok (), lines, t') := by
  intro run t
  have hname : Path.IsName "all.json" := by decide
  have hreads : settingsOf t [⟨"c.yaml"⟩] =
      .ok (namingLayers "all.json", namingSettings "all.json") := by
    decide +kernel
  have hfinds : t.discover ⟨"data"⟩ "uea_modules_" = .ok [⟨"data/uea_modules_2025_6.json"⟩] := by
    decide +kernel
  obtain ⟨t', lines, -, hfirst, hdata, hlayer, -, -⟩ := exists_rebuilds_captured hname hreads hfinds
  refine ⟨proper_captured _, lines, t', hfirst, hdata, hlayer, ?_⟩
  obtain ⟨merged, settings, files, c, hsettings, -, -, -, hiff, hagain, -⟩ :=
    rebuild_twice (proper_captured _) hfirst hdata (List.forall_mem_singleton.mpr hlayer)
  rw [on_readSettings, hreads] at hsettings
  cases hsettings
  have hnot := mt (hiff hname).mp (by decide)
  exact (hagain hnot).2.2

/-- A catalogue that settings name like a snapshot is found as one, and the next rebuild fails. -/
theorem not_rebuild_twice_named_as_snapshot :
    let run := (runRebuild [⟨"c.yaml"⟩] none none : Run Session Unit)
    let t := captured "uea_modules_2026_7.json"
    let out : Path := ⟨"data/uea_modules_2026_7.json"⟩
    t.Proper ∧ ∃ lines t' files e, run.on [] t = (.ok (), lines, t') ∧ lines ≠ ["no_data=true"] ∧
      t'.readText ⟨"c.yaml"⟩ = t.readText ⟨"c.yaml"⟩ ∧
      Session.on (Store.discover ⟨"data"⟩ "uea_modules_") t' = (.ok files, t') ∧ out ∈ files ∧
      run.on [] t' = (.error (.store (.decoding .snapshot out e)), [], t') := by
  intro run t out
  have hname : Path.IsName "uea_modules_2026_7.json" := by decide
  have hreads : settingsOf t [⟨"c.yaml"⟩] =
      .ok (namingLayers "uea_modules_2026_7.json", namingSettings "uea_modules_2026_7.json") := by
    decide +kernel
  have hfinds : t.discover ⟨"data"⟩ "uea_modules_" = .ok [⟨"data/uea_modules_2025_6.json"⟩] := by
    decide +kernel
  obtain ⟨t', lines, hrebuilds, hfirst, hdata, hlayer, hdir, hout⟩ :=
    exists_rebuilds_captured hname hreads hfinds
  obtain ⟨files, hfiles, hfound, -, hfail⟩ :=
    hrebuilds.exists_unreadable (proper_captured _) hdir (by decide) hout
  have hnumbers : ∀ x, Number.real x ∈ blankCatalog.toJson.numbers → (Number.real x).ReadsBack := by
    have hnone : blankCatalog.toJson.numbers = [] := by decide +kernel
    simp [hnone]
  obtain ⟨e, he⟩ := hfail hnumbers
  refine ⟨proper_captured _, lines, t', files, e, hfirst, hdata, hlayer, ?_, hfound, ?_⟩
  · rw [Store.on_discover]
    exact congrArg (·, t') hfiles
  · have hreads' := (settingsOf_congr (List.forall_mem_singleton.mpr hlayer)).trans hreads
    exact on_runRebuild_of_unreadable hreads' hfiles he

end Prospectus.Command
