import Prospectus.Proofs.Command.Rebuilding

/-!
# A rebuild writes all or nothing

A rebuild goes through stages that only read: it merges the layers of the settings, finds the
snapshots, reads all of them, builds the scrubber and makes the catalogue. Where one of them fails
(`Stops`), or there is no snapshot, the tree stays as it is. Where all succeed (`Makes`), one file
is written, and it is written as a whole or not at all (`rebuild_all_or_nothing`).
-/

namespace Prospectus.Command

open Json (Value decodeText)
open Run (on)
open Scrub (Scrubber)
open Store (FileTree Path Session StoreError documentText)

section

variable [Pattern.Dialect]

/-! ### The stages

The stages are those of the program in order, and each is stated of the tree as it was at the
start, since none of them changes it. `Finds`, `Loads` and `Makes` say how far a rebuild came, each
on top of the one before; `Stops` has one constructor for each stage that can fail, with the success
of the stages before it as hypotheses. Together with the rebuild that finds nothing they are all
that can happen, and they exclude each other. -/

/-- What a rebuild of a tree knows once it has found the snapshots: the merged layers, the settings
that they say, and the files. -/
structure Finds (t : FileTree) (layers : List Path) (directory? : Option Path) (merged : Value)
    (settings : Settings) (files : List Path) : Prop where
  reads : ((readSettings layers).on [] t).1 = .ok (merged, settings)
  finds : (Session.on (Store.discover (directoryOf settings directory?)
    settings.snapshots.filePrefix) t).1 = .ok files

/-- All snapshots that were found, of which there are some, could be read. -/
structure Loads (t : FileTree) (layers : List Path) (directory? : Option Path) (merged : Value)
    (settings : Settings) (files : List Path) (captures : List Snapshot) : Prop
    extends Finds t layers directory? merged settings files where
  nonempty : files ≠ []
  loads : (Session.on (Store.loadSnapshots files) t).1 = .ok captures

/-- The snapshots that were read make a catalogue, with the scrubber of the settings. This is as far
as a rebuild comes without writing. -/
def Makes (t : FileTree) (layers : List Path) (directory? : Option Path) (merged : Value)
    (settings : Settings) (files : List Path) (c : Catalog) (o : Outcome) : Prop :=
  ∃ captures scrubber, Loads t layers directory? merged settings files captures ∧
    Scrubber.ofRules settings.scrub = .ok scrubber ∧
    rebuildCatalog settings.catalog scrubber captures = .ok (c, o)

/-- Why a rebuild of a tree stops before it writes: the error of the first stage that fails. -/
inductive Stops (t : FileTree) (layers : List Path) (directory? : Option Path) :
    CommandError → Prop
  /-- A layer cannot be read or merged, or the merged layers are no settings. -/
  | settings {e : CommandError} (h : ((readSettings layers).on [] t).1 = .error e) :
    Stops t layers directory? e
  /-- The directory of the snapshots cannot be searched. -/
  | finding {merged : Value} {settings : Settings} {e : StoreError}
    (hreads : ((readSettings layers).on [] t).1 = .ok (merged, settings))
    (h : (Session.on (Store.discover (directoryOf settings directory?)
      settings.snapshots.filePrefix) t).1 = .error e) :
    Stops t layers directory? (.store e)
  /-- A snapshot cannot be read or is none, after others that could be read. -/
  | loading {merged : Value} {settings : Settings} {before after : List Path} {file : Path}
    {e : StoreError}
    (hfinds : Finds t layers directory? merged settings (before ++ file :: after))
    (hbefore : ∀ f ∈ before, ∃ s, (Session.on (Store.loadSnapshot f) t).1 = .ok s)
    (h : (Session.on (Store.loadSnapshot file) t).1 = .error e) :
    Stops t layers directory? (.store e)
  /-- A rule for the scrubber is none. -/
  | rules {merged : Value} {settings : Settings} {files : List Path} {captures : List Snapshot}
    {e : Scrub.RulesError}
    (hloads : Loads t layers directory? merged settings files captures)
    (h : Scrubber.ofRules settings.scrub = .error e) :
    Stops t layers directory? (.pipeline (.rules e))
  /-- The snapshots cannot be reconciled, or their modules cannot be put in order. -/
  | making {merged : Value} {settings : Settings} {files : List Path} {captures : List Snapshot}
    {scrubber : Scrubber} {e : PipelineError}
    (hloads : Loads t layers directory? merged settings files captures)
    (hscrubber : Scrubber.ofRules settings.scrub = .ok scrubber)
    (h : rebuildCatalog settings.catalog scrubber captures = .error e) :
    Stops t layers directory? (.pipeline e)

variable {t : FileTree} {layers : List Path} {directory? out? : Option Path} {merged : Value}
  {settings : Settings} {files : List Path} {captures : List Snapshot} {scrubber : Scrubber}
  {c : Catalog} {o : Outcome} {lines : List String} {e : CommandError}

omit [Pattern.Dialect] in
/-- The settings of a run are those of the tree. -/
theorem on_readSettings_iff {result : Except CommandError (Value × Settings)} :
    ((readSettings layers).on [] t).1 = result ↔ settingsOf t layers = result := by
  rw [on_readSettings]

/-- The snapshots that a run finds are those that the tree has. -/
theorem on_discover_iff {directory : Path} {filePrefix : String}
    {result : Except StoreError (List Path)} :
    (Session.on (Store.discover directory filePrefix) t).1 = result ↔
      t.discover directory filePrefix = result := by
  rw [Store.on_discover]

omit [Pattern.Dialect] in
/-- The snapshot that a run loads is that of the tree. -/
theorem on_loadSnapshot_iff {file : Path} {result : Except StoreError Snapshot} :
    (Session.on (Store.loadSnapshot file) t).1 = result ↔
      t.load .snapshot (Snapshot.decode .text) file = result := by
  rw [Store.loadSnapshot, Store.on_load]

omit [Pattern.Dialect] in
/-- Loading several snapshots is loading each from the same tree. -/
theorem on_loadSnapshots_iff {result : Except StoreError (List Snapshot)} :
    (Session.on (Store.loadSnapshots files) t).1 = result ↔
      files.mapM (t.load .snapshot (Snapshot.decode .text)) = result := by
  rw [Store.on_loadSnapshots]

/-! ### What follows a stage

How the program goes on from each of the points it can reach. These are its equations, evaluated up
to that point; a rebuild that has stopped has printed nothing and written nothing, whatever the
stage. -/

/-- A rebuild that has found snapshots goes on with them. -/
theorem Finds.on_runRebuild (h : Finds t layers directory? merged settings files)
    (hne : files ≠ []) : (runRebuild layers directory? out?).on lines t =
      (rebuildFrom merged settings
        (out?.getD (catalogFile settings (directoryOf settings directory?))) files).on lines t := by
  have hempty : ¬ files.isEmpty = true := by simpa using hne
  rw [Command.on_runRebuild (on_readSettings_iff.mp h.reads), on_discover_iff.mp h.finds]
  exact if_neg hempty

/-- A rebuild that has found no snapshot says so and does nothing. -/
theorem Finds.on_runRebuild_nil (h : Finds t layers directory? merged settings []) :
    (runRebuild layers directory? out?).on lines t =
      (.ok (), lines ++ ["no_data=true"], t) := by
  rw [Command.on_runRebuild (on_readSettings_iff.mp h.reads), on_discover_iff.mp h.finds]
  rfl

/-- With the snapshots at hand, the catalogue comes from the scrubber and the pipeline. -/
theorem Loads.catalogOf_eq (h : Loads t layers directory? merged settings files captures) :
    catalogOf t settings files =
      (Scrubber.ofRules settings.scrub).mapError (fun e => .pipeline (.rules e)) >>= fun scrubber =>
        (rebuildCatalog settings.catalog scrubber captures).mapError .pipeline := by
  rw [catalogOf, on_loadSnapshots_iff.mp h.loads]
  rfl

/-- A catalogue that cannot be made is not written. -/
theorem Finds.on_runRebuild_of_error (h : Finds t layers directory? merged settings files)
    (hne : files ≠ []) (hmade : catalogOf t settings files = .error e) :
    (runRebuild layers directory? out?).on lines t = (.error e, lines, t) := by
  rw [h.on_runRebuild hne, on_rebuildFrom, hmade]

/-- A rebuild that stops leaves the tree as it is, whatever the stage. No stage before the last one
writes. -/
theorem Stops.on_runRebuild (h : Stops t layers directory? e) :
    (runRebuild layers directory? out?).on lines t = (.error e, lines, t) := by
  cases h with
  | settings h =>
    rw [runRebuild, Run.on_bind, on_readSettings, on_readSettings_iff.mp h]
  | finding hreads h =>
    rw [Command.on_runRebuild (on_readSettings_iff.mp hreads), on_discover_iff.mp h]
  | @loading _ _ before after file e hfinds hbefore h =>
    -- the snapshots are loaded one after the other, and the first that fails ends it
    have hload : (before ++ file :: after).mapM (t.load .snapshot (Snapshot.decode .text)) =
        .error e := by
      refine mapM_eq_error_iff.mpr ⟨before, file, after, rfl, on_loadSnapshot_iff.mp h, ?_⟩
      intro f hf
      obtain ⟨s, hs⟩ := hbefore f hf
      exact ⟨s, on_loadSnapshot_iff.mp hs⟩
    refine hfinds.on_runRebuild_of_error (by simp) ?_
    rw [catalogOf, hload]
    rfl
  | rules hloads h =>
    -- the rules come after the snapshots, so all of these have been loaded
    refine hloads.on_runRebuild_of_error hloads.nonempty ?_
    rw [hloads.catalogOf_eq, h]
    rfl
  | making hloads hscrubber h =>
    refine hloads.on_runRebuild_of_error hloads.nonempty ?_
    rw [hloads.catalogOf_eq, hscrubber]
    exact congrArg (Except.mapError CommandError.pipeline) h

/-- Once the catalogue is made, all that is left is to write it. -/
theorem Makes.on_runRebuild (h : Makes t layers directory? merged settings files c o) {out : Path}
    (hout : out?.getD (catalogFile settings (directoryOf settings directory?)) = out) :
    (runRebuild layers directory? out?).on lines t =
      match Session.on (Store.saveCatalog out c) t with
      | (.error e, t') => (.error (.store e), lines, t')
      | (.ok (), t') => (.ok (), lines ++ rebuildLines files.length merged c o out, t') := by
  obtain ⟨captures, scrubber, hloads, hscrubber, hmade⟩ := h
  have hcatalog : catalogOf t settings files = .ok (c, o) := by
    rw [hloads.catalogOf_eq, hscrubber]
    exact congrArg (Except.mapError CommandError.pipeline) hmade
  have hfrom := on_rebuildFrom merged settings out files lines t
  rw [hcatalog] at hfrom
  rw [hloads.on_runRebuild hloads.nonempty, hout]
  exact hfrom

/-- A catalogue that could be made was made from snapshots that could be read. -/
theorem Finds.makes_of_catalogOf (h : Finds t layers directory? merged settings files)
    (hne : files ≠ []) (hmade : catalogOf t settings files = .ok (c, o)) :
    Makes t layers directory? merged settings files c o := by
  obtain ⟨captures, hload, hrest⟩ := bind_eq_ok_iff.mp hmade
  obtain ⟨scrubber, hscrubber, hmakes⟩ := bind_eq_ok_iff.mp hrest
  have hload := on_loadSnapshots_iff.mpr (mapError_eq_ok_iff.mp hload)
  exact ⟨captures, scrubber, ⟨h, hne, hload⟩, mapError_eq_ok_iff.mp hscrubber,
    mapError_eq_ok_iff.mp hmakes⟩

/-- A rebuild stops, finds no snapshot, or makes a catalogue. The cases are those of the stages,
each of which fails or succeeds. -/
theorem stops_or_finds_nil_or_makes (t : FileTree) (layers : List Path) (directory? : Option Path) :
    (∃ e, Stops t layers directory? e) ∨
    (∃ merged settings, Finds t layers directory? merged settings []) ∨
    ∃ merged settings files c o, Makes t layers directory? merged settings files c o := by
  -- the stages in the order of the run; each either ends it or hands on what the next one needs
  cases hreads : settingsOf t layers with
  | error e => exact .inl ⟨e, .settings (on_readSettings_iff.mpr hreads)⟩
  | ok read =>
    obtain ⟨merged, settings⟩ := read
    have hreads := on_readSettings_iff.mpr hreads
    cases hfiles : t.discover (directoryOf settings directory?) settings.snapshots.filePrefix with
    | error e => exact .inl ⟨_, .finding hreads (on_discover_iff.mpr hfiles)⟩
    | ok files =>
      have hfinds : Finds t layers directory? merged settings files :=
        ⟨hreads, on_discover_iff.mpr hfiles⟩
      -- a directory without snapshots is an end of its own, and no error
      by_cases hne : files = []
      · subst hne
        exact .inr (.inl ⟨merged, settings, hfinds⟩)
      · cases hload : files.mapM (t.load .snapshot (Snapshot.decode .text)) with
        | error e =>
          obtain ⟨before, file, after, rfl, hfile, hbefore⟩ := mapM_eq_error_iff.mp hload
          refine .inl ⟨_, .loading hfinds ?_ (on_loadSnapshot_iff.mpr hfile)⟩
          intro f hf
          obtain ⟨s, hs⟩ := hbefore f hf
          exact ⟨s, on_loadSnapshot_iff.mpr hs⟩
        | ok captures =>
          have hloads : Loads t layers directory? merged settings files captures :=
            ⟨hfinds, hne, on_loadSnapshots_iff.mpr hload⟩
          cases hscrubber : Scrubber.ofRules settings.scrub with
          | error e => exact .inl ⟨_, .rules hloads hscrubber⟩
          | ok scrubber =>
            cases hmade : rebuildCatalog settings.catalog scrubber captures with
            | error e => exact .inl ⟨_, .making hloads hscrubber hmade⟩
            | ok made =>
              exact .inr (.inr ⟨merged, settings, files, made.1, made.2, captures, scrubber,
                hloads, hscrubber, hmade⟩)

end

/-! ### All or nothing

Writing is the last step, and one file is all that is written. The file system may still refuse
it, so there is a fourth way to end, in which the catalogue was made and the tree is as before. -/

/-- However a tree, the layers of the settings and the options are, a rebuild stops before it
writes, finds no snapshot, or makes a catalogue. In the first two cases the tree stays exactly as it
is. In the third one the file of the catalogue holds its text afterwards and there are no other
changes to any file; or that file cannot be written, which is then the error, and all files are as
before. -/
theorem rebuild_all_or_nothing [Pattern.Dialect] (t : FileTree) (layers : List Path)
    (directory? out? : Option Path) (lines : List String) :
    let rebuild := (run (.rebuild layers directory? out?) : Run Session Unit).on lines t
    (∀ e, Stops t layers directory? e → rebuild = (.error e, lines, t)) ∧
    (∀ merged settings, Finds t layers directory? merged settings [] →
      rebuild = (.ok (), lines ++ ["no_data=true"], t)) ∧
    (∀ merged settings files c o, Makes t layers directory? merged settings files c o →
      let out := out?.getD (catalogFile settings (directoryOf settings directory?))
      (∃ t' place,
        rebuild = (.ok (), lines ++ rebuildLines files.length merged c o out, t') ∧
        t'.placeOf out = .ok place ∧ t'.readText out = .ok (documentText (Catalog.toJson c)) ∧
        t'.entryAt? place = some (.file (documentText (Catalog.toJson c)).toUTF8) ∧
        ∀ other ≠ place, ∀ bytes,
          t'.entryAt? other = some (.file bytes) ↔ t.entryAt? other = some (.file bytes)) ∨
      ∃ t' e, rebuild = (.error (.store e), lines, t') ∧
        ((∃ directory cause, e = .makingDirectory directory cause) ∨
          ∃ cause, e = .writing .catalog out cause) ∧
        ∀ place bytes,
          t'.entryAt? place = some (.file bytes) ↔ t.entryAt? place = some (.file bytes)) ∧
    ((∃ e, Stops t layers directory? e) ∨
      (∃ merged settings, Finds t layers directory? merged settings []) ∨
      ∃ merged settings files c o, Makes t layers directory? merged settings files c o) := by
  intro rebuild
  refine ⟨fun e h => h.on_runRebuild, fun merged settings h => h.on_runRebuild_nil, ?_,
    stops_or_finds_nil_or_makes t layers directory?⟩
  intro merged settings files c o h out
  have hout : out?.getD (catalogFile settings (directoryOf settings directory?)) = out := rfl
  have hrebuild : rebuild = _ := h.on_runRebuild hout
  -- all that is left is the write, which either succeeds or leaves every file as it was
  cases hsave : Session.on (Store.saveCatalog out c) t with
  | mk result t' =>
    rw [hsave] at hrebuild
    cases result with
    | ok u =>
      obtain ⟨place, hsaved⟩ := Store.saved_of_on_save hsave
      exact .inl ⟨t', place, hrebuild, hsaved.placeOf, hsaved.readText, hsaved.entry,
        fun other hne bytes => hsaved.file_iff hne⟩
    | error e =>
      obtain ⟨hgrows, he⟩ := Store.grows_of_on_save hsave
      exact .inr ⟨t', e, hrebuild, he, fun place => FileTree.file_iff_of_or (hgrows place)⟩

/-- A catalogue of older days beside a capture that breaks off. -/
def brokenCapture : FileTree :=
  ((captured "all.json").put ["data", "all.json"] (.file "old".toUTF8)).put
    ["data", "uea_modules_2025_6.json"] (.file "\x7b".toUTF8)

/-- The capture that breaks off is a stage that fails. -/
theorem stops_brokenCapture : ∃ e, Stops brokenCapture [⟨"c.yaml"⟩] none e := by
  have hreads : settingsOf brokenCapture [⟨"c.yaml"⟩] =
      .ok (namingLayers "all.json", namingSettings "all.json") := by
    decide +kernel
  have hfinds : brokenCapture.discover ⟨"data"⟩ "uea_modules_" =
      .ok [⟨"data/uea_modules_2025_6.json"⟩] := by
    decide +kernel
  have htext : (decodeText (Snapshot.decode .text) "\x7b").isOk = false := by
    decide +kernel
  obtain ⟨e, he⟩ : ∃ e, decodeText (Snapshot.decode .text) "\x7b" = .error e := by
    cases h : decodeText (Snapshot.decode .text) "\x7b" with
    | error e => exact ⟨e, rfl⟩
    | ok s =>
      rw [h] at htext
      cases htext
  have hread : brokenCapture.readText ⟨"data/uea_modules_2025_6.json"⟩ = .ok "\x7b" :=
    FileTree.readText_put rfl (by decide) nofun
  have hfound : Finds brokenCapture [⟨"c.yaml"⟩] none _ _
      ([] ++ ⟨"data/uea_modules_2025_6.json"⟩ :: []) :=
    ⟨on_readSettings_iff.mpr hreads, on_discover_iff.mpr hfinds⟩
  exact ⟨_, .loading hfound (List.forall_mem_nil _)
    (on_loadSnapshot_iff.mpr (FileTree.load_eq_error hread he))⟩

/-- A capture that breaks off stops a rebuild, an empty directory gives it nothing to do, and from a
capture that can be read it writes the catalogue and changes no other file. -/
theorem rebuild_all_or_nothing_captured :
    let rebuild (directory? : Option Path) (t : FileTree) :=
      (run (.rebuild [⟨"c.yaml"⟩] directory? none) : Run Session Unit).on [] t
    let t := captured "all.json"
    (∃ e, rebuild none brokenCapture = (.error e, [], brokenCapture)) ∧
    rebuild (some ⟨"elsewhere"⟩) t = (.ok (), ["no_data=true"], t) ∧
    ∃ t' place lines, rebuild none t = (.ok (), lines, t') ∧
      t'.readText ⟨"data/all.json"⟩ = .ok (documentText blankCatalog.toJson) ∧
      ∀ other ≠ place, ∀ bytes,
        t'.entryAt? other = some (.file bytes) ↔ t.entryAt? other = some (.file bytes) := by
  intro rebuild t
  have hname : Path.IsName "all.json" := by decide
  have hreads : settingsOf t [⟨"c.yaml"⟩] =
      .ok (namingLayers "all.json", namingSettings "all.json") := by
    decide +kernel
  have hfinds : t.discover ⟨"data"⟩ "uea_modules_" = .ok [⟨"data/uea_modules_2025_6.json"⟩] := by
    decide +kernel
  have hnone : t.discover ⟨"elsewhere"⟩ "uea_modules_" = .ok [] := by
    decide +kernel
  obtain ⟨e, hstops⟩ := stops_brokenCapture
  have hread := on_readSettings_iff.mpr hreads
  -- a snapshot that cannot be read, a directory without snapshots, and a rebuild that is made
  refine ⟨⟨e, (rebuild_all_or_nothing brokenCapture _ none none []).1 e hstops⟩, ?_, ?_⟩
  · exact (rebuild_all_or_nothing t _ (some ⟨"elsewhere"⟩) none []).2.1 _ _
      ⟨hread, on_discover_iff.mpr hnone⟩
  · have hmakes : Makes t [⟨"c.yaml"⟩] none _ _ _ _ _ :=
      Finds.makes_of_catalogOf ⟨hread, on_discover_iff.mpr hfinds⟩ (by decide)
        (catalogOf_captured "all.json")
    obtain ⟨_, _, -, hends, -⟩ := exists_rebuilds_captured hname hreads hfinds
    rcases (rebuild_all_or_nothing t _ none none []).2.2.1 _ _ _ _ _ hmakes with
      ⟨t', place, hrebuild, -, hwritten, -, hothers⟩ | ⟨t', e, hrebuild, -⟩
    · exact ⟨t', place, _, hrebuild, hwritten, hothers⟩
    · cases hrebuild.symm.trans hends

end Prospectus.Command
