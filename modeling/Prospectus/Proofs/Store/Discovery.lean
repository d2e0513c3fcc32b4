import Mathlib.Data.List.Nodup
import Prospectus.Proofs.Store.Documents

/-! # Which snapshots are found

In a tree whose places are made of names (`FileTree.Proper`), as work on paths leaves it
(`proper_of_on_save`), the files found in a directory are exactly those whose names are names of
snapshots, ascending (`exists_names_of_discover`). So what is found depends on these files alone: a
document written anywhere else makes no difference (`FileTree.Saved.discover_eq`).

The search compiles a pattern from the prefix, and a dialect may have no room for it. Then a
directory that is there is not searched at all, and the error names the expression
(`discover_of_not_fits`). Where the directory is missing, nothing is found and no pattern is needed.
So having found something says that there was room (`fits_of_discover`), which is how the theorems
about a second search get their hypothesis. -/

namespace Prospectus.Store

open Store.Path (IsName)
open Session (on)

namespace FileTree

variable {t t' : FileTree} {p directory : Path} {place : List String}

/-! ### Trees of names

A tree is a dictionary from places to entries, and places are lists of names. Nothing in the type
keeps a name from having a slash in it, or from being two dots; but a path never steps into such a
name, so no work on paths brings one about. -/

/-- All parts of places where something stands are names that a path can step into. The empty tree
has this property, and all work on paths keeps it. -/
def Proper (t : FileTree) : Prop := ∀ place, t.entryAt? place ≠ none → ∀ name ∈ place, IsName name

theorem proper_empty : (∅ : FileTree).Proper := by
  intro place h
  by_cases hplace : place = []
  · subst hplace
    exact List.forall_mem_nil _
  · exact absurd (if_neg hplace) h

theorem Proper.put (h : t.Proper) (hne : place ≠ []) (hplace : ∀ name ∈ place, IsName name)
    (e : Entry) : (t.put place e).Proper := by
  intro other hother
  rw [entryAt?_put t hne] at hother
  split_ifs at hother with heq
  · exact heq ▸ hplace
  · exact h other hother

/-- Where names are stepped into, the place that is reached is made of names. A step up leads to a
place that was passed before. -/
theorem names_of_follow {start : List String} {steps : List Path.Step}
    (hsteps : ∀ name, .into name ∈ steps → IsName name) (hstart : ∀ name ∈ start, IsName name)
    (h : t.follow start steps = .ok place) : ∀ name ∈ place, IsName name := by
  induction steps generalizing start with
  | nil =>
    cases h
    exact hstart
  | cons step steps ih =>
    rw [follow_cons] at h
    obtain ⟨next, hstep, hrest⟩ := bind_eq_ok_iff.mp h
    refine ih (fun name hname => hsteps name (List.mem_cons_of_mem _ hname)) ?_ hrest
    -- a step into a place adds its name, a step up takes the last one away
    cases step with
    | into name =>
      obtain ⟨-, rfl⟩ := (follow_into t start name).mp hstep
      exact List.forall_mem_append.mpr
        ⟨hstart, List.forall_mem_singleton.mpr (hsteps name List.mem_cons_self)⟩
    | up =>
      obtain ⟨-, -, rfl⟩ := (follow_up t start).mp hstep
      exact fun name hname => hstart name (List.dropLast_subset _ hname)

theorem names_of_placeOf (h : t.placeOf p = .ok place) : ∀ name ∈ place, IsName name := by
  obtain ⟨hcheck, hfollow⟩ := placeOf_eq_ok_iff.mp h
  have hsound := (checkPath_eq_ok_iff.mp hcheck).1
  have hsteps : ∀ name, .into name ∈ p.steps → IsName name :=
    fun name => Path.isName_of_mem_steps hsound
  exact names_of_follow hsteps (List.forall_mem_nil _) hfollow

theorem Proper.makeAlong (h : t.Proper) {start : List String} {steps : List Path.Step}
    (hsteps : ∀ name, .into name ∈ steps → IsName name) (hstart : ∀ name ∈ start, IsName name) :
    (t.makeAlong start steps).1.Proper := by
  induction steps generalizing t start with
  | nil => exact h
  | cons step steps ih =>
    have hrest : ∀ name, .into name ∈ steps → IsName name :=
      fun name hname => hsteps name (List.mem_cons_of_mem _ hname)
    -- what is made on the way is a directory with the name of a step
    cases step with
    | up =>
      rw [FileTree.makeAlong]
      split_ifs
      · exact h
      · exact ih h hrest fun name hname => hstart name (List.dropLast_subset _ hname)
    | into name =>
      have hnext : ∀ n ∈ start ++ [name], IsName n := by
        exact List.forall_mem_append.mpr
          ⟨hstart, List.forall_mem_singleton.mpr (hsteps name List.mem_cons_self)⟩
      rw [FileTree.makeAlong]
      split
      · exact ih h hrest hnext
      · exact h
      · exact ih (h.put (by simp) hnext _) hrest hnext

theorem Proper.makeDirectory (h : t.Proper) (p : Path) : (t.makeDirectory p).1.Proper := by
  unfold FileTree.makeDirectory
  split_ifs
  · exact h
  · split
    · exact h
    · next hcheck =>
      have hsound := (checkPath_eq_ok_iff.mp hcheck).1
      exact h.makeAlong (fun name => Path.isName_of_mem_steps hsound) (List.forall_mem_nil _)

end FileTree

open FileTree

variable {t t' : FileTree} {file directory : Path} {place : List String} {kind : DocumentKind}

theorem proper_of_on_save {j : Json} (ht : t.Proper) (h : on (save kind file j) t = (.ok (), t')) :
    t'.Proper := by
  obtain ⟨t₁, ht₁, hwrite⟩ := exists_writeText_of_on_save h
  have hproper : t₁.Proper := by
    rcases ht₁ with rfl | ⟨directory, rfl⟩
    · exact ht
    · exact ht.makeDirectory directory
  obtain ⟨place, hplace, -, hentry, rfl⟩ := writeText_eq_ok_iff.mp hwrite
  exact hproper.put (ne_nil_of_not_directory hentry) (names_of_placeOf hplace) _

/-! ### Finding

Listing a directory gives the last parts of the places in it. Of these the files with the name of a
snapshot are kept and sorted. That each of them is a file is asked by its path, which leads back to
the place that the name was taken from. -/

/-- A file at a place has the name of a snapshot. What is in the file is not asked. -/
def SnapshotAt (t : FileTree) (place : List String) (filePrefix name : String) : Prop :=
  isSnapshotName filePrefix name = true ∧ ∃ bytes, t.entryAt? (place ++ [name]) = some (.file bytes)

theorem FileTree.entry_eq_directory_iff :
    t.entry directory = .ok .directory ↔
      ∃ place, t.placeOf directory = .ok place ∧ t.entryAt? place = some .directory := by
  rw [entry, bind_eq_ok_iff]
  refine exists_congr fun place => and_congr_right fun _ => ?_
  cases t.entryAt? place with
  | none => simp [throw, throwThe, MonadExceptOf.throw]
  | some e =>
    cases e with
    | directory => simp [pure, Except.pure]
    | file bytes =>
      cases directory.endsInDirectory <;>
        simp [pure, Except.pure, throw, throwThe, MonadExceptOf.throw]

/-- The last parts of the places in a directory. -/
def FileTree.namesAt (t : FileTree) (place : List String) : List String :=
  t.entries.keys.filterMap fun key =>
    match key.getLast? with
    | some name => if key.dropLast = place then some name else none
    | none => none

/-- Exactly one place in a directory has a given name as its last part. -/
theorem FileTree.lastPart_eq_some_iff {key place : List String} {name : String} :
    (match key.getLast? with
      | some name => if key.dropLast = place then some name else none
      | none => none) = some name ↔ key = place ++ [name] := by
  rcases List.eq_nil_or_concat key with rfl | ⟨front, last, rfl⟩
  · simp
  · rw [List.concat_eq_append, List.getLast?_concat, List.dropLast_concat]
    by_cases hfront : front = place <;> simp [hfront]

theorem FileTree.mem_namesAt {name : String} :
    name ∈ t.namesAt place ↔ t.entryAt? (place ++ [name]) ≠ none := by
  have hne : place ++ [name] ≠ [] := by simp
  rw [namesAt, List.mem_filterMap, entryAt?, if_neg hne, Option.ne_none_iff_exists',
    ← Dict.mem_keys_iff]
  constructor
  · rintro ⟨key, hkey, hlast⟩
    exact lastPart_eq_some_iff.mp hlast ▸ hkey
  · intro hkey
    exact ⟨_, hkey, lastPart_eq_some_iff.mpr rfl⟩

theorem FileTree.nodup_namesAt (t : FileTree) (place : List String) : (t.namesAt place).Nodup := by
  apply (nodup_of_ascending t.entries.keys_ascending).filterMap
  intro key key' name hname hname'
  exact (lastPart_eq_some_iff.mp hname).trans (lastPart_eq_some_iff.mp hname').symm

/-- A file that a name in a directory leads to stands under that name at the place of the
directory. -/
theorem FileTree.entry_join_eq_file_iff (hplace : t.placeOf directory = .ok place)
    (hdir : t.entryAt? place = some .directory) {name : String} (hname : IsName name)
    {bytes : ByteArray} : t.entry (directory.join ⟨name⟩) = .ok (.file bytes) ↔
      t.entryAt? (place ++ [name]) = some (.file bytes) := by
  have hne : directory.text ≠ "" :=
    (checkPath_eq_ok_iff.mp (placeOf_eq_ok_iff.mp hplace).1).2.1
  have hjoin := placeOf_join hplace hdir hname
  rw [entry_eq_file_iff]
  constructor
  · rintro ⟨other, hother, hentry, -⟩
    cases hjoin.symm.trans hother
    exact hentry
  · intro hentry
    exact ⟨_, hjoin, hentry, Path.endsInDirectory_join hne hname⟩

theorem FileTree.isFile_eq_true_iff {file : Path} :
    t.isFile file = true ↔ ∃ bytes, t.entry file = .ok (.file bytes) := by
  rw [isFile]
  constructor
  · intro h
    split at h
    · next bytes hentry => exact ⟨bytes, hentry⟩
    · cases h
  · rintro ⟨bytes, hentry⟩
    rw [hentry]

/-- The names in a directory belong to its place. -/
theorem FileTree.namesIn_eq_ok_iff {names : List String} : t.namesIn directory = .ok names ↔
    ∃ place, t.placeOf directory = .ok place ∧ t.entryAt? place = some .directory ∧
      t.namesAt place = names := by
  rw [namesIn, bind_eq_ok_iff]
  constructor
  · rintro ⟨e, hentry, h⟩
    cases e with
    | file bytes => cases h
    | directory =>
      obtain ⟨place, hplace, hdir⟩ := entry_eq_directory_iff.mp hentry
      obtain ⟨place', hplace', h⟩ := bind_eq_ok_iff.mp h
      cases hplace.symm.trans hplace'
      exact ⟨place, hplace, hdir, Except.ok.inj h⟩
  · rintro ⟨place, hplace, hdir, h⟩
    -- a path that leads to a directory has a place, and the names are those found there
    refine ⟨.directory, entry_eq_directory_iff.mpr ⟨place, hplace, hdir⟩, ?_⟩
    exact bind_eq_ok_iff.mpr ⟨place, hplace, congrArg Except.ok h⟩

theorem contains_of_directory (hplace : t.placeOf directory = .ok place)
    (hdir : t.entryAt? place = some .directory) : t.contains directory = true := by
  have hentry : t.entry directory = .ok .directory :=
    entry_eq_directory_iff.mpr ⟨place, hplace, hdir⟩
  rw [contains, hentry]
  rfl

section

variable [Pattern.Dialect] {filePrefix : String} {files : List Path}

/-- What is found depends on one directory alone: all that stands there has to have a name. The
names are given in ascending order, and the paths of the files are made of them. -/
theorem exists_names_of_discover_in (hplace : t.placeOf directory = .ok place)
    (hdir : t.entryAt? place = some .directory)
    (hisName : ∀ name, t.entryAt? (place ++ [name]) ≠ none → IsName name)
    (hfits : PrefixFits filePrefix) :
    ∃ names : List String,
      t.discover directory filePrefix = .ok (names.map fun name => directory.join ⟨name⟩) ∧
      (names.Pairwise fun a b => compare a b = .lt) ∧
      ∀ name, name ∈ names ↔ SnapshotAt t place filePrefix name := by
  have hnames : t.namesIn directory = .ok (t.namesAt place) :=
    namesIn_eq_ok_iff.mpr ⟨place, hplace, hdir, rfl⟩
  let sorted := ((t.namesAt place).filter (isSnapshotName filePrefix)).mergeSort
    fun a b => (compare a b).isLE
  have hperm : sorted.Perm ((t.namesAt place).filter (isSnapshotName filePrefix)) :=
    List.mergeSort_perm ..
  have hsorted : sorted.Pairwise fun a b => compare a b = .lt := by
    refine ascending_mergeSort_key id ?_
    rw [List.map_id]
    exact (t.nodup_namesAt place).filter _
  refine ⟨sorted.filter fun name => t.isFile (directory.join ⟨name⟩), ?_, ?_, ?_⟩
  · -- the search lists the names that fit and then keeps those of files
    rw [FileTree.discover, if_pos (contains_of_directory hplace hdir), if_pos hfits, hnames]
    show Except.ok ((sorted.map fun name => directory.join ⟨name⟩).filter t.isFile) = _
    rw [List.filter_map]
    rfl
  · exact hsorted.filter _
  · intro name
    rw [List.mem_filter, hperm.mem_iff, List.mem_filter, mem_namesAt, isFile_eq_true_iff,
      SnapshotAt]
    constructor
    · -- a file at the joined path is one at the place of the name, whatever else the path looks
      -- like
      rintro ⟨⟨hentry, hsnapshot⟩, bytes, hfile⟩
      have hname : IsName name := hisName name hentry
      exact ⟨hsnapshot, bytes, (entry_join_eq_file_iff hplace hdir hname).mp hfile⟩
    · rintro ⟨hsnapshot, bytes, hentry⟩
      have hsome : t.entryAt? (place ++ [name]) ≠ none := by simp [hentry]
      have hname : IsName name := hisName name hsome
      exact ⟨⟨hsome, hsnapshot⟩, bytes, (entry_join_eq_file_iff hplace hdir hname).mpr hentry⟩

theorem exists_names_of_discover (ht : t.Proper) (hplace : t.placeOf directory = .ok place)
    (hdir : t.entryAt? place = some .directory) (hfits : PrefixFits filePrefix) :
    ∃ names : List String,
      t.discover directory filePrefix = .ok (names.map fun name => directory.join ⟨name⟩) ∧
      (names.Pairwise fun a b => compare a b = .lt) ∧
      ∀ name, name ∈ names ↔ SnapshotAt t place filePrefix name :=
  exists_names_of_discover_in hplace hdir (fun name h => ht _ h name (by simp)) hfits

/-- A prefix that is too long stops the search in every directory that is there. -/
theorem discover_of_not_fits (hcontains : t.contains directory = true)
    (hfits : ¬ PrefixFits filePrefix) : t.discover directory filePrefix =
      .error (.naming (String.ofList (snapshotExpression filePrefix))) := by
  rw [FileTree.discover, if_pos hcontains, if_neg hfits]

theorem fits_of_discover (hcontains : t.contains directory = true)
    (h : t.discover directory filePrefix = .ok files) : PrefixFits filePrefix := by
  by_contra hfits
  cases (discover_of_not_fits hcontains hfits).symm.trans h

/-- What is found in a directory: the files there with the names of snapshots. The paths of these
are made of the path of the directory as it was given. -/
theorem mem_of_discover (ht : t.Proper) (hplace : t.placeOf directory = .ok place)
    (hdir : t.entryAt? place = some .directory)
    (h : t.discover directory filePrefix = .ok files) {file : Path} :
    file ∈ files ↔
      ∃ name, SnapshotAt t place filePrefix name ∧ directory.join ⟨name⟩ = file := by
  have hfits : PrefixFits filePrefix := fits_of_discover (contains_of_directory hplace hdir) h
  obtain ⟨names, hnames, -, hmem⟩ := exists_names_of_discover ht hplace hdir hfits
  cases h.symm.trans hnames
  rw [List.mem_map]
  exact exists_congr fun name => and_congr_left fun _ => hmem name

/-- Files are found only where a directory is. -/
theorem exists_place_of_discover (h : t.discover directory filePrefix = .ok files)
    (hne : files ≠ []) :
    ∃ place, t.placeOf directory = .ok place ∧ t.entryAt? place = some .directory := by
  rw [FileTree.discover] at h
  split_ifs at h
  · obtain ⟨names, hnames, -⟩ := bind_eq_ok_iff.mp h
    obtain ⟨e, hentry, hnames⟩ := bind_eq_ok_iff.mp (mapError_eq_ok_iff.mp hnames)
    cases e with
    | file bytes => cases hnames
    | directory => exact entry_eq_directory_iff.mp hentry
  · cases h
    exact absurd rfl hne

end

/-- A file that is found stands at its name in the directory. -/
theorem SnapshotAt.entry_join {filePrefix name : String} (h : SnapshotAt t place filePrefix name)
    (ht : t.Proper) (hplace : t.placeOf directory = .ok place)
    (hdir : t.entryAt? place = some .directory) :
    t.placeOf (directory.join ⟨name⟩) = .ok (place ++ [name]) ∧
      ∃ bytes, t.entryAt? (place ++ [name]) = some (.file bytes) ∧
        t.entry (directory.join ⟨name⟩) = .ok (.file bytes) := by
  obtain ⟨-, bytes, hentry⟩ := h
  have hsome : t.entryAt? (place ++ [name]) ≠ none := by simp [hentry]
  have hname : IsName name := ht _ hsome name (by simp)
  exact ⟨placeOf_join hplace hdir hname, bytes, hentry,
    (entry_join_eq_file_iff hplace hdir hname).mpr hentry⟩

/-! ### After a document was written

Writing adds one file, and perhaps directories on the way to it. No file comes or goes elsewhere, so
another search differs at most by the file that was written. -/

namespace FileTree.Saved

variable {text : String} {saved : List String} (h : t.Saved t' file text saved)

include h

/-- A file at another place holds what it held before. -/
theorem entry_eq {other : Path} {bytes : ByteArray} (hentry : t.entry other = .ok (.file bytes))
    (hne : t.placeOf other ≠ .ok saved) : t'.entry other = .ok (.file bytes) := by
  obtain ⟨place, hplace, hfile, hend⟩ := entry_eq_file_iff.mp hentry
  have hplace' : place ≠ saved := by
    rintro rfl
    exact hne hplace
  exact entry_eq_file_iff.mpr ⟨place, placeOf_of_directories h.directories hplace,
    (h.file_iff hplace').mpr hfile, hend⟩

theorem snapshotAt_iff {filePrefix name : String} (hne : place ++ [name] ≠ saved) :
    SnapshotAt t' place filePrefix name ↔ SnapshotAt t place filePrefix name :=
  and_congr_right fun _ => exists_congr fun _ => h.file_iff hne

/-- A snapshot that a document was not written over is the same as before. -/
theorem entry_join_eq (ht : t.Proper) (hplace : t.placeOf directory = .ok place)
    (hdir : t.entryAt? place = some .directory) {filePrefix name : String}
    (hname : SnapshotAt t place filePrefix name) (hne : place ++ [name] ≠ saved) :
    t'.entry (directory.join ⟨name⟩) = t.entry (directory.join ⟨name⟩) := by
  obtain ⟨hjoin, bytes, -, hentry⟩ := hname.entry_join ht hplace hdir
  rw [hentry]
  apply h.entry_eq hentry
  rw [hjoin]
  exact fun heq => hne (Except.ok.inj heq)

/-- Where no snapshot is looked for, a document makes no difference to what is found. -/
theorem discover_eq [Pattern.Dialect] (ht : t.Proper) (ht' : t'.Proper)
    (hplace : t.placeOf directory = .ok place) (hdir : t.entryAt? place = some .directory)
    {filePrefix : String}
    (hfree : ∀ name, isSnapshotName filePrefix name = true → place ++ [name] ≠ saved) :
    t'.discover directory filePrefix = t.discover directory filePrefix := by
  have hplace' : t'.placeOf directory = .ok place := placeOf_of_directories h.directories hplace
  have hdir' : t'.entryAt? place = some .directory := h.directories place hdir
  by_cases hfits : PrefixFits filePrefix
  · obtain ⟨names, hnames, hasc, hmem⟩ := exists_names_of_discover ht hplace hdir hfits
    obtain ⟨names', hnames', hasc', hmem'⟩ := exists_names_of_discover ht' hplace' hdir' hfits
    have hsame : names' = names := by
      refine eq_of_ascending hasc' hasc fun name => ?_
      rw [hmem, hmem']
      constructor
      · intro hfound
        exact (h.snapshotAt_iff (hfree name hfound.1)).mp hfound
      · intro hfound
        exact (h.snapshotAt_iff (hfree name hfound.1)).mpr hfound
    rw [hnames, hnames', hsame]
  · -- both searches stop before they look at the names
    rw [discover_of_not_fits (contains_of_directory hplace' hdir') hfits,
      discover_of_not_fits (contains_of_directory hplace hdir) hfits]

end FileTree.Saved

end Prospectus.Store
