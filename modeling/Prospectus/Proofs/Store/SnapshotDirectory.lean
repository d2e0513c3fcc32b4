import Prospectus.Proofs.Rebuild.InputOrder
import Prospectus.Proofs.Rebuild.Stored
import Prospectus.Proofs.Record.Stored
import Prospectus.Proofs.Store.Discovery
import Prospectus.Proofs.Store.Names

/-! # Directories of snapshots

Snapshots with labels of digits that are all different get files of their own, whatever the prefix
of their names is. So nothing is written over (`on_saveSnapshots`), exactly these files are found,
in the order of their names, and what is read from them makes the same catalogue, although their
order may have changed: `2025_10` is found before `2025_6`.

Four things have to go together for that. Labels make names, different labels make different names,
and the names are those that the search looks for; this is known of every prefix. The files are
written one after the other without touching those before; this is known of file trees. What is
written of a snapshot is read back as the snapshot; this is known of texts. And the catalogue does
not depend on the order of the snapshots. The search is the one part that can fail, if the dialect
has no room for the pattern of the names, and it does so before a file is looked at. -/

namespace Prospectus

open Json

namespace Store

open Store.Path (IsName)
open Session (on on_bind)

variable {t t' : FileTree} {directory : Path} {place : List String} {filePrefix : String}
  {snapshots : List Snapshot}

/-! ### Paths into one directory

Files are sorted by their paths as texts. In one directory these differ only in the names at the
end, so the order is that of the names. -/

/-- Paths into a directory are in the order of the names at their ends. -/
theorem Path.compare_join {p : Path} {a b : String} (ha : IsName a) (hb : IsName b)
    (h : compare a b = .lt) : compare (p.join ⟨a⟩).text (p.join ⟨b⟩).text = .lt := by
  have hlead : ∀ lead : String, compare (lead ++ a) (lead ++ b) = .lt := by
    intro lead
    have hlt : a.toList < b.toList := String.lt_iff.mp (compareOfLessAndEq_eq_lt.mp h)
    refine compareOfLessAndEq_eq_lt.mpr (String.lt_iff.mpr ?_)
    rw [String.toList_append, String.toList_append]
    exact List.append_left_lt hlt
  rw [join, join, ha.not_isAbsolute, hb.not_isAbsolute]
  split_ifs
  · exact h
  · exact hlead _
  · exact hlead _

/-- Paths by ascending text. -/
def sortedPaths (files : List Path) : List Path :=
  files.mergeSort fun p q => (compare p.text q.text).isLE

theorem sortedPaths_eq_of_perm {files sorted : List Path} (h : sorted.Perm files)
    (hsorted : sorted.Pairwise fun p q => compare p.text q.text = .lt) :
    sortedPaths files = sorted := by
  have hle : sorted.Pairwise fun p q => (compare p.text q.text).isLE := by
    refine hsorted.imp fun hlt => ?_
    rw [hlt]
    rfl
  have hself : sortedPaths sorted = sorted := List.mergeSort_of_pairwise hle
  rw [← hself]
  refine (mergeSort_eq_of_perm ?_ ?_ h ?_).symm
  · exact fun _ _ _ => Std.TransCmp.isLE_trans
  · exact fun _ _ => compare_isLE_total _ _
  · rintro ⟨p⟩ ⟨q⟩ - - hpq hqp
    exact congrArg Path.mk (eq_of_isLE_of_isLE hpq hqp)

/-! ### Filling a directory

The induction is on the snapshots. Each is written into a tree that has the files of those before
it, and none of these is its own, as the names are distinct. -/

/-- The name of the file of a snapshot. -/
def nameOf (filePrefix : String) (s : Snapshot) : String := snapshotName filePrefix s.academicYear

/-- The file of a snapshot in a directory. -/
def fileOf (directory : Path) (filePrefix : String) (s : Snapshot) : Path :=
  directory.join ⟨nameOf filePrefix s⟩

/-- Snapshots were written as files of a directory, and nothing else has changed. Each file holds
the text of its snapshot. -/
structure FileTree.Filled (t t' : FileTree) (place : List String) (filePrefix : String)
    (snapshots : List Snapshot) : Prop where
  entry : ∀ s ∈ snapshots,
    t'.entryAt? (place ++ [nameOf filePrefix s]) = some (.file (documentText s.toJson).toUTF8)
  others : ∀ other, (∀ s ∈ snapshots, other ≠ place ++ [nameOf filePrefix s]) →
    t'.entryAt? other = t.entryAt? other

/-- Writing a snapshot changes the file with its name in the directory, and nothing else. -/
theorem on_saveSnapshot (hplace : t.placeOf directory = .ok place)
    (hdir : t.entryAt? place = some .directory) {s : Snapshot}
    (hname : IsName (nameOf filePrefix s))
    (hfree : t.entryAt? (place ++ [nameOf filePrefix s]) ≠ some .directory) :
    on (saveSnapshot (fileOf directory filePrefix s) s) t = (.ok (),
      t.put (place ++ [nameOf filePrefix s]) (.file (documentText s.toJson).toUTF8)) := by
  have hne : directory.text ≠ "" :=
    (FileTree.checkPath_eq_ok_iff.mp (FileTree.placeOf_eq_ok_iff.mp hplace).1).2.1
  have hjoin := FileTree.placeOf_join hplace hdir hname
  exact on_save .snapshot s.toJson hjoin (Path.endsInDirectory_join hne hname) hfree

theorem saveSnapshots_cons (directory : Path) (filePrefix : String) (s : Snapshot)
    (snapshots : List Snapshot) :
    (saveSnapshots directory filePrefix (s :: snapshots) : ExceptT StoreError Session _) =
      saveSnapshot (fileOf directory filePrefix s) s >>= fun _ =>
        saveSnapshots directory filePrefix snapshots >>= fun files =>
          pure (fileOf directory filePrefix s :: files) := by
  rw [saveSnapshots, List.mapM_cons, bind_assoc]
  rfl

/-- Snapshots are written one after the other, each beside those before it. The induction is on the
snapshots, for any tree that has the directory. -/
theorem on_saveSnapshots (hplace : t.placeOf directory = .ok place)
    (hdir : t.entryAt? place = some .directory)
    (hnames : ∀ s ∈ snapshots, IsName (nameOf filePrefix s))
    (hapart : (snapshots.map (nameOf filePrefix)).Nodup)
    (hfree : ∀ s ∈ snapshots, t.entryAt? (place ++ [nameOf filePrefix s]) ≠ some .directory) :
    ∃ t', on (saveSnapshots directory filePrefix snapshots) t =
        (.ok (snapshots.map (fileOf directory filePrefix)), t') ∧
      t.Filled t' place filePrefix snapshots := by
  induction snapshots generalizing t with
  | nil => exact ⟨t, rfl, List.forall_mem_nil _, fun _ _ => rfl⟩
  | cons s snapshots ih =>
    obtain ⟨hname, hnames⟩ := List.forall_mem_cons.mp hnames
    obtain ⟨hfirst, hfree⟩ := List.forall_mem_cons.mp hfree
    obtain ⟨hnew, hapart⟩ := List.nodup_cons.mp hapart
    have hsave := on_saveSnapshot hplace hdir hname hfirst
    have hput := FileTree.entryAt?_put t (FileTree.ne_nil_of_not_directory hfirst)
      (.file (documentText s.toJson).toUTF8)
    have hdirs := FileTree.directories_put_file hfirst (documentText s.toJson).toUTF8
    generalize t.put _ _ = t₁ at hsave hput hdirs
    -- the directory is still there, and the places of the files to come are still free
    have hfree₁ : ∀ s' ∈ snapshots,
        t₁.entryAt? (place ++ [nameOf filePrefix s']) ≠ some .directory := by
      intro s' hs' h
      rw [hput] at h
      split_ifs at h
      · cases h
      · exact hfree s' hs' h
    obtain ⟨t', hrest, hfilled⟩ :=
      ih (FileTree.placeOf_of_directories hdirs hplace) (hdirs place hdir) hnames hapart hfree₁
    refine ⟨t', ?_, ?_, ?_⟩
    · -- the first file is written, then the others into the tree that has it
      rw [saveSnapshots_cons, on_bind, hsave]
      show on (saveSnapshots directory filePrefix snapshots >>= _) t₁ = _
      rw [on_bind, hrest]
      rfl
    · -- no later file has its name, so it is still there
      refine List.forall_mem_cons.mpr ⟨?_, hfilled.entry⟩
      rw [hfilled.others, hput, if_pos rfl]
      intro s' hs' heq
      have hsame : nameOf filePrefix s = nameOf filePrefix s' := by simpa using heq
      exact hnew (hsame ▸ List.mem_map_of_mem hs')
    · -- and places that none of the names lead to stay as they were
      intro other hother
      obtain ⟨hne, hother⟩ := List.forall_mem_cons.mp hother
      rw [hfilled.others other hother, hput, if_neg hne]

namespace FileTree.Filled

variable (h : t.Filled t' place filePrefix snapshots)

include h

/-- No directory is lost. -/
theorem directories (hempty : ∀ name, t.entryAt? (place ++ [name]) = none) (other : List String)
    (hother : t.entryAt? other = some .directory) : t'.entryAt? other = some .directory := by
  rw [h.others, hother]
  rintro s - rfl
  cases (hempty _).symm.trans hother

/-- In a directory that was empty, there are the files that it was filled with. -/
theorem entryAt?_ne_none_iff (hempty : ∀ name, t.entryAt? (place ++ [name]) = none)
    {name : String} :
    t'.entryAt? (place ++ [name]) ≠ none ↔ name ∈ snapshots.map (nameOf filePrefix) := by
  by_cases hname : name ∈ snapshots.map (nameOf filePrefix)
  · obtain ⟨s, hs, rfl⟩ := List.mem_map.mp hname
    simp [h.entry s hs, hname]
  · have hother : ∀ s ∈ snapshots, place ++ [name] ≠ place ++ [nameOf filePrefix s] := by
      intro s hs heq
      have hsame : name = nameOf filePrefix s := by simpa using heq
      exact hname (hsame ▸ List.mem_map_of_mem hs)
    simp [h.others _ hother, hempty, hname]

theorem snapshotAt_iff (hempty : ∀ name, t.entryAt? (place ++ [name]) = none)
    (hlabels : ∀ s ∈ snapshots, s.academicYear.Numbered) {name : String} :
    SnapshotAt t' place filePrefix name ↔ name ∈ snapshots.map (nameOf filePrefix) := by
  constructor
  · rintro ⟨-, bytes, hentry⟩
    exact (h.entryAt?_ne_none_iff hempty).mp (by simp [hentry])
  · intro hname
    obtain ⟨s, hs, rfl⟩ := List.mem_map.mp hname
    exact ⟨isSnapshotName_snapshotName filePrefix (hlabels s hs), _, h.entry s hs⟩

end FileTree.Filled

/-! ### Finding and reading what was written

In a directory that was empty the names that are found are those that were written. Sorting them
sorts the snapshots by name, which is a permutation. -/

/-- Snapshots by ascending name of their files. -/
def byName (filePrefix : String) (snapshots : List Snapshot) : List Snapshot :=
  snapshots.mergeSort fun s s' => (compare (nameOf filePrefix s) (nameOf filePrefix s')).isLE

theorem byName_perm (filePrefix : String) (snapshots : List Snapshot) :
    (byName filePrefix snapshots).Perm snapshots :=
  List.mergeSort_perm ..

/-- Different labels of digits make different names. -/
theorem nodup_nameOf (hlabels : ∀ s ∈ snapshots, s.academicYear.Numbered)
    (hd : Snapshot.Distinct snapshots) : (snapshots.map (nameOf filePrefix)).Nodup := by
  have hmap : snapshots.map (nameOf filePrefix) =
      (snapshots.map Snapshot.academicYear).map (snapshotName filePrefix) := by
    rw [List.map_map]
    rfl
  have hyears : ∀ y ∈ snapshots.map Snapshot.academicYear, y.Numbered :=
    List.forall_mem_map.mpr hlabels
  rw [hmap]
  exact List.Nodup.map_on (fun y hy z hz => snapshotName_injective (hyears y hy) (hyears z hz)) hd

theorem ascending_byName (hapart : (snapshots.map (nameOf filePrefix)).Nodup) :
    (byName filePrefix snapshots).Pairwise
      fun s s' => compare (nameOf filePrefix s) (nameOf filePrefix s') = .lt :=
  ascending_mergeSort_key (nameOf filePrefix) hapart

/-- The files of snapshots are in the order of their names. -/
theorem sortedPaths_map_fileOf (hnames : ∀ s ∈ snapshots, IsName (nameOf filePrefix s))
    (hapart : (snapshots.map (nameOf filePrefix)).Nodup) :
    sortedPaths (snapshots.map (fileOf directory filePrefix)) =
      (byName filePrefix snapshots).map (fileOf directory filePrefix) := by
  have hperm := byName_perm filePrefix snapshots
  refine sortedPaths_eq_of_perm (hperm.map _) (List.pairwise_map.mpr ?_)
  refine (ascending_byName hapart).imp_of_mem ?_
  intro s s' hs hs' hlt
  exact Path.compare_join (hnames s (hperm.mem_iff.mp hs)) (hnames s' (hperm.mem_iff.mp hs')) hlt

namespace FileTree.Filled

variable (h : t.Filled t' place filePrefix snapshots)

include h

theorem discover_eq [Pattern.Dialect] (hempty : ∀ name, t.entryAt? (place ++ [name]) = none)
    (hplace : t'.placeOf directory = .ok place) (hdir : t'.entryAt? place = some .directory)
    (hlabels : ∀ s ∈ snapshots, s.academicYear.Numbered)
    (hnames : ∀ s ∈ snapshots, IsName (nameOf filePrefix s))
    (hapart : (snapshots.map (nameOf filePrefix)).Nodup) (hfits : PrefixFits filePrefix) :
    t'.discover directory filePrefix =
      .ok ((byName filePrefix snapshots).map (fileOf directory filePrefix)) := by
  -- the directory was empty, so whatever stands in it now was written
  have hisName : ∀ name, t'.entryAt? (place ++ [name]) ≠ none → IsName name := by
    intro name hname
    obtain ⟨s, hs, rfl⟩ := List.mem_map.mp ((h.entryAt?_ne_none_iff hempty).mp hname)
    exact hnames s hs
  obtain ⟨names, hfound, hascending, hmem⟩ :=
    exists_names_of_discover_in hplace hdir hisName hfits
  have hsame : names = (byName filePrefix snapshots).map (nameOf filePrefix) := by
    -- both lists ascend by name, so it is enough that they have the same names
    refine eq_of_ascending hascending ?_ fun name => ?_
    · exact List.pairwise_map.mpr (ascending_byName hapart)
    · rw [hmem, h.snapshotAt_iff hempty hlabels,
        ((byName_perm filePrefix snapshots).map (nameOf filePrefix)).mem_iff]
  rw [hfound, hsame, List.map_map]
  rfl

/-- A snapshot that can be read back from its text is read back from its file. -/
theorem load_eq (hplace : t'.placeOf directory = .ok place)
    (hdir : t'.entryAt? place = some .directory) {s : Snapshot} (hs : s ∈ snapshots)
    (hname : IsName (nameOf filePrefix s))
    (htext : decodeText (Snapshot.decode .text) (documentText s.toJson) = .ok s) :
    t'.load .snapshot (Snapshot.decode .text) (fileOf directory filePrefix s) = .ok s := by
  have hfile := (entry_join_eq_file_iff hplace hdir hname).mpr (h.entry s hs)
  exact load_eq_ok_iff.mpr
    ⟨_, readText_eq_ok_iff.mpr ⟨_, hfile, fromUTF8?_toUTF8 _⟩, htext⟩

end FileTree.Filled

section

variable [Pattern.Dialect]

/-- Snapshots were written into a directory; exactly their files are found there, sorted, and the
same snapshots are read from them. Finding and reading leave the tree as it was after writing. -/
structure Kept (t t' : FileTree) (directory : Path) (filePrefix : String)
    (snapshots loaded : List Snapshot) : Prop where
  saved : on (saveSnapshots directory filePrefix snapshots) t =
    (.ok (snapshots.map (fileOf directory filePrefix)), t')
  /-- The search goes by a pattern, and it fails if the dialect has no room for that. -/
  found : on (discover directory filePrefix) t' =
    (if PrefixFits filePrefix then
      .ok (sortedPaths (snapshots.map (fileOf directory filePrefix)))
    else .error (.naming (String.ofList (snapshotExpression filePrefix))), t')
  read : on (loadSnapshots (sortedPaths (snapshots.map (fileOf directory filePrefix)))) t' =
    (.ok loaded, t')
  perm : loaded.Perm snapshots

theorem exists_kept (hempty : t.namesIn directory = .ok [])
    (hlabels : ∀ s ∈ snapshots, s.academicYear.Numbered) (hd : Snapshot.Distinct snapshots)
    (hslash : '/' ∉ filePrefix.toList) (hnull : '\x00' ∉ filePrefix.toList)
    (htexts : ∀ s ∈ snapshots,
      decodeText (Snapshot.decode .text) (documentText s.toJson) = .ok s) :
    ∃ t' loaded, Kept t t' directory filePrefix snapshots loaded := by
  obtain ⟨place, hplace, hdir, hnone⟩ := FileTree.namesIn_eq_ok_iff.mp hempty
  have hempty : ∀ name, t.entryAt? (place ++ [name]) = none := by
    intro name
    by_contra hentry
    have hmem := FileTree.mem_namesAt.mpr hentry
    rw [hnone] at hmem
    cases hmem
  have hnames : ∀ s ∈ snapshots, IsName (nameOf filePrefix s) :=
    fun s hs => isName_snapshotName hslash hnull (hlabels s hs)
  have hapart : (snapshots.map (nameOf filePrefix)).Nodup := nodup_nameOf hlabels hd
  obtain ⟨t', hsaved, hfilled⟩ :=
    on_saveSnapshots hplace hdir hnames hapart fun s _ => by simp [hempty]
  -- the directory is where it was, so the search and the reading look at the files just written
  have hdirs := hfilled.directories hempty
  have hplace' := FileTree.placeOf_of_directories hdirs hplace
  have hdir' := hdirs place hdir
  have hsorted : sortedPaths (snapshots.map (fileOf directory filePrefix)) =
      (byName filePrefix snapshots).map (fileOf directory filePrefix) :=
    sortedPaths_map_fileOf hnames hapart
  have hperm := byName_perm filePrefix snapshots
  refine ⟨t', byName filePrefix snapshots, hsaved, ?_, ?_, hperm⟩
  · -- discovery: the files by name, or the error of a pattern that cannot be built
    rw [on_discover, hsorted]
    refine congrArg (·, t') ?_
    split_ifs with hfits
    · exact hfilled.discover_eq hempty hplace' hdir' hlabels hnames hapart hfits
    · exact discover_of_not_fits (contains_of_directory hplace' hdir') hfits
  · -- loading: each file holds the text of its snapshot, from which the snapshot is read back
    rw [on_loadSnapshots, hsorted, List.mapM_map]
    refine congrArg (·, t') (mapM_eq_ok_iff.mpr (List.forall₂_same.mpr fun s hs => ?_))
    have hs := hperm.mem_iff.mp hs
    exact hfilled.load_eq hplace' hdir' hs (hnames s hs) (htexts s hs)

/-- Snapshots that were read from texts and have different labels of digits are kept by an empty
directory: none is lost, written over or altered, and the catalogue that is made from what is read
is the same under all rules. This needs a prefix that can stand in the name of a file; its names and
its pattern fit whatever the prefix is. -/
theorem exists_kept_of_texts {texts : List String}
    (htexts : texts.mapM (decodeText (Snapshot.decode .text)) = .ok snapshots)
    (hlabels : ∀ s ∈ snapshots, s.academicYear.Numbered) (hd : Snapshot.Distinct snapshots)
    (hreals : ∀ s ∈ snapshots, ∀ x, Number.real x ∈ s.toJson.numbers → (Number.real x).ReadsBack)
    (hempty : t.namesIn directory = .ok []) (hslash : '/' ∉ filePrefix.toList)
    (hnull : '\x00' ∉ filePrefix.toList) :
    (∃ t' loaded, Kept t t' directory filePrefix snapshots loaded ∧
      ∀ course school rules,
        runPipeline course school rules loaded = runPipeline course school rules snapshots) ∧
    ∀ anyPrefix, NamesSnapshots anyPrefix := by
  -- snapshots that were read fit, so they are read back from what is written of them
  have hback : ∀ s ∈ snapshots,
      decodeText (Snapshot.decode .text) (documentText s.toJson) = .ok s := by
    intro s hs
    obtain ⟨text, -, htext⟩ := exists_mem_of_mem_mapM htexts hs
    exact Snapshot.decodeText_documentText (hreals s hs) (Snapshot.fits_of_decodeText htext)
  obtain ⟨t', loaded, hkept⟩ := exists_kept hempty hlabels hd hslash hnull hback
  refine ⟨⟨t', loaded, hkept, fun course school rules => ?_⟩, namesSnapshots⟩
  exact runPipeline_perm course school rules hkept.perm

end

/-- Two captures with rules that hold a double, where the order of names is not the one of years. -/
def spacedTrees : List Json :=
  [captureTree "2025/6" [("module_rules", listedRules)],
    captureTree "2025/10" [("module_rules", .null)]]

/-- The captures that these trees are read as. -/
def spacedCaptures : List Snapshot :=
  [⟨"", ⟨"2025/6"⟩, "", none,
      [{ Record.blank "MTH1" "Year 1" with moduleRules := .ofJson listedRules }]⟩,
    ⟨"", ⟨"2025/10"⟩, "", none,
      [{ Record.blank "MTH1" "Year 1" with moduleRules := .ofJson .null }]⟩]

theorem decode_spacedTrees : (spacedTrees.map documentText).mapM
    (decodeText (Snapshot.decode .text)) = .ok spacedCaptures := by
  have hnumbers : ∀ j ∈ spacedTrees, ∀ n ∈ j.numbers, n.ReadsBack := by decide +kernel
  exact decodeText_trees hnumbers (by decide +kernel)

theorem numbered_spacedCaptures : ∀ s ∈ spacedCaptures, s.academicYear.Numbered := by
  simp only [spacedCaptures, List.forall_mem_cons]
  exact ⟨⟨"2025".toList, "6".toList, rfl, rfl, by decide, List.all_eq_true.mp rfl⟩,
    ⟨"2025".toList, "10".toList, rfl, rfl, by decide, List.all_eq_true.mp rfl⟩,
    List.forall_mem_nil _⟩

/-- The later capture is found first, and the prefix is taken as it stands. -/
theorem exists_kept_of_texts_spaced :
    let t : FileTree := (∅ : FileTree).put ["data"] .directory
    let files : List Path := [⟨"data/a.b+_2025_10.json"⟩, ⟨"data/a.b+_2025_6.json"⟩]
    (spacedTrees.map documentText).mapM (decodeText (Snapshot.decode .text)) =
      .ok spacedCaptures ∧
    ∃ t' loaded,
      on (saveSnapshots ⟨"data"⟩ "a.b+_" spacedCaptures) t = (.ok files.reverse, t') ∧
      on (discover ⟨"data"⟩ "a.b+_") t' = (.ok files, t') ∧
      on (loadSnapshots files) t' = (.ok loaded, t') ∧ loaded.Perm spacedCaptures ∧
      runPipeline "" "" {} loaded = runPipeline "" "" {} spacedCaptures := by
  intro t files
  have hreals : ∀ s ∈ spacedCaptures, ∀ n ∈ s.toJson.numbers, n.ReadsBack := by decide +kernel
  have hempty : t.namesIn ⟨"data"⟩ = .ok [] := by decide
  have hslash : '/' ∉ "a.b+_".toList := by decide
  obtain ⟨⟨t', loaded, hkept, hpipeline⟩, -⟩ :=
    exists_kept_of_texts decode_spacedTrees numbered_spacedCaptures (by decide)
      (fun s hs x => hreals s hs _) hempty hslash (by decide)
  have hwritten : spacedCaptures.map (fileOf ⟨"data"⟩ "a.b+_") = files.reverse := by decide
  have hsorted : sortedPaths files.reverse = files :=
    sortedPaths_eq_of_perm files.reverse_perm.symm (by decide)
  obtain ⟨hsaved, hfound, hread, hperm⟩ := hkept
  have hfits : PrefixFits "a.b+_" := by decide
  rw [hwritten] at hsaved hfound hread
  rw [hsorted] at hfound hread
  rw [if_pos hfits] at hfound
  exact ⟨decode_spacedTrees, t', loaded, hsaved, hfound, hread, hperm, hpipeline "" "" {}⟩

end Store

end Prospectus
