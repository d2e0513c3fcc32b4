import Prospectus.Proofs.Store.FileTree
import Prospectus.Proofs.Store.Names

/-!
# Documents in a file tree

What looking for documents, reading them and writing them comes to when it works on a file tree.
Finding and reading leave the tree as it is (`on_discover`, `on_load`). Writing a document where one
can be written changes this one file (`on_save`); where directories have to be made first, it adds
them (`saved_of_on_save`).
-/

namespace Prospectus.Store

open Json (Decoder)

variable {ε α β : Type} {t t' : FileTree} {file directory : Path} {place : List String}
  {kind : DocumentKind}

/-! ### Work on a tree

Programs are written over an interface to files, and here it is a tree. A run ends in a result or an
error, and in a tree; a step that only reads ends in the tree that it began with. -/

/-- How some work on a tree ends, and the tree that it leaves. -/
def Session.on (x : ExceptT ε Session α) (t : FileTree) : Except ε α × FileTree := x.run.run t

theorem Session.on_bind (x : ExceptT ε Session α) (f : α → ExceptT ε Session β) (t : FileTree) :
    Session.on (x >>= f) t = match Session.on x t with
      | (.ok a, t') => Session.on (f a) t'
      | (.error e, t') => (.error e, t') := by
  simp only [Session.on, ExceptT.run_bind, StateT.run_bind]
  rcases x.run.run t with ⟨_ | a, t'⟩
  · rfl
  · rfl

open Session (on on_bind)

theorem on_pure (a : α) (t : FileTree) : on (pure a : ExceptT ε Session α) t = (.ok a, t) := rfl

/-- Steps that only read do so one after the other. -/
theorem on_mapM {l : List α} {f : α → ExceptT ε Session β} {g : α → Except ε β}
    (h : ∀ a ∈ l, on (f a) t = (g a, t)) : on (l.mapM f) t = (l.mapM g, t) := by
  induction l with
  | nil => rfl
  | cons a l ih =>
    obtain ⟨ha, hl⟩ := List.forall_mem_cons.mp h
    rw [List.mapM_cons, List.mapM_cons, on_bind, ha]
    cases g a with
    | error e => rfl
    | ok b =>
      show on (l.mapM f >>= fun bs => pure (b :: bs)) t = _
      rw [on_bind, ih hl]
      cases l.mapM g <;> rfl

theorem on_filterM {l : List α} {f : α → ExceptT ε Session Bool} {p : α → Bool}
    (h : ∀ a ∈ l, on (f a) t = (.ok (p a), t)) : on (l.filterM f) t = (.ok (l.filter p), t) := by
  -- the filter collects from the front, so the induction keeps what has been collected so far
  have haux : ∀ (l kept : List α), (∀ a ∈ l, on (f a) t = (.ok (p a), t)) →
      on (l.filterAuxM f kept) t = (.ok ((l.filter p).reverse ++ kept), t) := by
    intro l
    induction l with
    | nil => exact fun _ _ => rfl
    | cons a l ih =>
      intro kept h
      obtain ⟨ha, hl⟩ := List.forall_mem_cons.mp h
      rw [List.filterAuxM, on_bind, ha]
      cases hp : p a with
      | false => simpa [hp] using ih kept hl
      | true => simpa [hp] using ih (a :: kept) hl
  rw [List.filterM, on_bind, haux l [] h]
  simp [on_pure]

theorem on_attempt (asError : FileError → StoreError) (x : Session (Except FileError α))
    (t : FileTree) : on (attempt asError x) t = ((x.run t).1.mapError asError, (x.run t).2) :=
  rfl

/-! ### Reading documents

A document is the text of a file, decoded. It may fail for the file or for the text, and the error
says which. -/

/-- The document in a file of a tree. -/
def FileTree.load (t : FileTree) (kind : DocumentKind) (d : Decoder α) (file : Path) :
    Except StoreError α := do
  let text ← (t.readText file).mapError (.reading kind file)
  (Json.decodeText d text).mapError (.decoding kind file)

theorem FileTree.load_eq_ok_iff {d : Decoder α} {x : α} : t.load kind d file = .ok x ↔
    ∃ text, t.readText file = .ok text ∧ Json.decodeText d text = .ok x := by
  rw [FileTree.load, bind_eq_ok_iff]
  simp only [mapError_eq_ok_iff]

theorem FileTree.load_congr {d : Decoder α} (h : t'.entry file = t.entry file) :
    t'.load kind d file = t.load kind d file := by
  rw [FileTree.load, FileTree.load, FileTree.readText_congr h]

theorem FileTree.load_eq_error {d : Decoder α} {text : String} {e : Json.DecodeError}
    (htext : t.readText file = .ok text) (h : Json.decodeText d text = .error e) :
    t.load kind d file = .error (.decoding kind file e) := by
  rw [FileTree.load, htext]
  show (Json.decodeText d text).mapError _ = _
  rw [h]
  rfl

theorem on_load (t : FileTree) (kind : DocumentKind) (d : Decoder α) (file : Path) :
    on (load kind d file) t = (t.load kind d file, t) := by
  rw [load, on_bind, on_attempt, FileTree.load, Session.run_readText]
  cases t.readText file with
  | error e => rfl
  | ok text =>
    show _ = ((Json.decodeText d text).mapError (StoreError.decoding kind file), t)
    simp only [Except.mapError]
    cases Json.decodeText d text <;> rfl

theorem on_loadSnapshots (t : FileTree) (files : List Path) :
    on (loadSnapshots files) t = (files.mapM (t.load .snapshot (Snapshot.decode .text)), t) :=
  on_mapM fun file _ => on_load t .snapshot _ file

/-! ### Finding documents

Finding asks for the names in a directory and for each whether it is a file; all of this reads only.
-/

/-- The snapshot files in a directory of a tree. -/
def FileTree.discover [Pattern.Dialect] (t : FileTree) (directory : Path) (filePrefix : String) :
    Except StoreError (List Path) :=
  if t.contains directory then
    if PrefixFits filePrefix then do
      let names ← (t.namesIn directory).mapError (.listing directory)
      let names := (names.filter (isSnapshotName filePrefix)).mergeSort
        fun a b => (compare a b).isLE
      return (names.map fun name => directory.join ⟨name⟩).filter t.isFile
    else .error (.naming (String.ofList (snapshotExpression filePrefix)))
  else return []

theorem on_discover [Pattern.Dialect] (t : FileTree) (directory : Path) (filePrefix : String) :
    on (discover directory filePrefix) t = (t.discover directory filePrefix, t) := by
  have hcontains : on (liftM (FileAccess.contains directory : Session Bool) :
      ExceptT StoreError Session Bool) t = (.ok (t.contains directory), t) := rfl
  rw [discover, on_bind, hcontains, FileTree.discover, snapshotPattern?_eq]
  -- without the directory nothing is found, and the pattern is not needed
  cases t.contains directory with
  | false => rfl
  | true =>
    by_cases hfits : PrefixFits filePrefix
    · simp only [hfits, if_true, occursIn_snapshotPattern]
      show on (attempt _ _ >>= _) t = _
      rw [on_bind, on_attempt, Session.run_namesIn]
      cases t.namesIn directory with
      | error e => rfl
      | ok names => exact on_filterM fun _ _ => rfl
    · -- a pattern that cannot be built ends the search, before any name is read
      simp only [hfits, if_false]
      rfl

/-! ### Writing documents

The directory of the file is made first, and then the text is written in one piece. The two may fail
one by one, and if the second does, the directory stays. `FileTree.Saved` is what is known after
both have succeeded, whatever the tree was before. -/

theorem on_write (kind : DocumentKind) (file : Path) (text : String) (t : FileTree) :
    on (attempt (.writing kind file) (FileAccess.writeText file text)) t =
      match t.writeText file text with
      | .ok t' => (.ok (), t')
      | .error e => (.error (.writing kind file e), t) := by
  rw [on_attempt]
  show ((Session.writeText file text t).1.mapError _, (Session.writeText file text t).2) = _
  rw [Session.writeText]
  cases t.writeText file text <;> rfl

theorem on_makeDirectory (directory : Path) (t : FileTree) :
    on (attempt (.makingDirectory directory) (FileAccess.makeDirectory directory)) t =
      ((t.makeDirectory directory).2.mapError (.makingDirectory directory),
        (t.makeDirectory directory).1) :=
  rfl

/-- Where a file can be written, writing a document changes this file and nothing else. -/
theorem on_save (kind : DocumentKind) (j : Json) (h : t.placeOf file = .ok place)
    (hend : file.endsInDirectory = false) (hentry : t.entryAt? place ≠ some .directory) :
    on (save kind file j) t = (.ok (), t.put place (.file (documentText j).toUTF8)) := by
  have hwrite : on (attempt (.writing kind file) (FileAccess.writeText file (documentText j))) t =
      (.ok (), t.put place (.file (documentText j).toUTF8)) := by
    rw [on_write, FileTree.writeText_eq_ok_iff.mpr ⟨place, h, hend, hentry, rfl⟩]
  unfold save
  -- a path without a parent is written to at once
  cases hparent : file.parent? with
  | none => exact hwrite
  | some directory =>
    simp only
    split_ifs with hempty
    · -- the path leads on, so its directory is there
      rw [on_bind, on_makeDirectory, FileTree.makeDirectory_parent h hend hparent]
      exact hwrite
    · exact hwrite

/-- How writing a document ends: its directory cannot be made, or the text is written, or cannot be,
in a tree that is the old one or the old one with a directory made. All that is said about failures
of writing starts from here. -/
theorem on_save_cases (kind : DocumentKind) (file : Path) (j : Json) (t : FileTree) :
    (∃ directory cause, on (save kind file j) t =
      (.error (.makingDirectory directory cause), (t.makeDirectory directory).1)) ∨
    ∃ t₁, (t₁ = t ∨ ∃ directory, t₁ = (t.makeDirectory directory).1) ∧
      on (save kind file j) t = match t₁.writeText file (documentText j) with
        | .ok t' => (.ok (), t')
        | .error cause => (.error (.writing kind file cause), t₁) := by
  unfold save
  cases file.parent? with
  | none => exact .inr ⟨t, .inl rfl, on_write kind file _ t⟩
  | some directory =>
    simp only
    -- the parent is made first, and may fail; what is made stays whether or not the write succeeds
    split_ifs
    · rw [on_bind, on_makeDirectory]
      cases (t.makeDirectory directory).2 with
      | error cause => exact .inl ⟨directory, cause, rfl⟩
      | ok u => exact .inr ⟨_, .inr ⟨directory, rfl⟩, on_write kind file _ _⟩
    · exact .inr ⟨t, .inl rfl, on_write kind file _ t⟩

/-- A document was written into a tree that is the old one or the old one with a directory made. -/
theorem exists_writeText_of_on_save {j : Json} (h : on (save kind file j) t = (.ok (), t')) :
    ∃ t₁, (t₁ = t ∨ ∃ directory, t₁ = (t.makeDirectory directory).1) ∧
      t₁.writeText file (documentText j) = .ok t' := by
  rcases on_save_cases kind file j t with ⟨directory, cause, hsave⟩ | ⟨t₁, ht₁, hsave⟩
  · cases hsave.symm.trans h
  · refine ⟨t₁, ht₁, ?_⟩
    rw [hsave] at h
    cases hwrite : t₁.writeText file (documentText j) with
    | error cause =>
      rw [hwrite] at h
      cases h
    | ok t₂ =>
      rw [hwrite] at h
      cases h
      rfl

theorem FileTree.grows_of_or_makeDirectory {t₁ : FileTree}
    (h : t₁ = t ∨ ∃ directory, t₁ = (t.makeDirectory directory).1) : t.Grows t₁ := by
  rcases h with rfl | ⟨directory, rfl⟩
  · exact .refl t₁
  · exact t.grows_makeDirectory directory

/-- A document that cannot be written leaves all that was there, and some directories at most. -/
theorem grows_of_on_save {j : Json} {e : StoreError}
    (h : on (save kind file j) t = (.error e, t')) : t.Grows t' ∧
      ((∃ directory cause, e = .makingDirectory directory cause) ∨
        ∃ cause, e = .writing kind file cause) := by
  -- the error is that of making the directory or that of writing, and a failed write writes
  -- nothing
  rcases on_save_cases kind file j t with ⟨directory, cause, hsave⟩ | ⟨t₁, ht₁, hsave⟩
  · cases hsave.symm.trans h
    exact ⟨t.grows_makeDirectory directory, .inl ⟨directory, cause, rfl⟩⟩
  · rw [hsave] at h
    cases hwrite : t₁.writeText file (documentText j) with
    | error cause =>
      rw [hwrite] at h
      cases h
      exact ⟨FileTree.grows_of_or_makeDirectory ht₁, .inr ⟨cause, rfl⟩⟩
    | ok t₂ =>
      rw [hwrite] at h
      cases h

/-- What a tree is after a text was written as a file: the file holds the text, in place of an older
one or of nothing, and all that came beside it are directories. -/
structure FileTree.Saved (t t' : FileTree) (file : Path) (text : String) (place : List String) :
    Prop where
  placeOf : t'.placeOf file = .ok place
  endsInDirectory : file.endsInDirectory = false
  entry : t'.entryAt? place = some (.file text.toUTF8)
  before : t.entryAt? place ≠ some .directory
  others : ∀ other ≠ place, t'.entryAt? other = t.entryAt? other ∨
    t.entryAt? other = none ∧ t'.entryAt? other = some .directory

theorem saved_of_on_save {j : Json} (h : on (save kind file j) t = (.ok (), t')) :
    ∃ place, t.Saved t' file (documentText j) place := by
  obtain ⟨t₁, ht₁, hwrite⟩ := exists_writeText_of_on_save h
  have hgrows : t.Grows t₁ := FileTree.grows_of_or_makeDirectory ht₁
  obtain ⟨place, hplace, hend, hentry, rfl⟩ := FileTree.writeText_eq_ok_iff.mp hwrite
  have hput := FileTree.entryAt?_put t₁ (FileTree.ne_nil_of_not_directory hentry)
    (.file (documentText j).toUTF8)
  -- where the path leads afterwards, what stands there, that it was no directory, and the other
  -- places
  refine ⟨place, ?_, hend, ?_, ?_, ?_⟩
  · exact FileTree.placeOf_of_directories (FileTree.directories_put_file hentry _) hplace
  · rw [hput, if_pos rfl]
  · rcases hgrows place with heq | ⟨hnone, -⟩
    · rwa [← heq]
    · simp [hnone]
  · intro other hother
    rw [hput, if_neg hother]
    exact hgrows other

namespace FileTree.Saved

variable {text : String}

theorem readText (h : t.Saved t' file text place) : t'.readText file = .ok text :=
  readText_eq_ok_iff.mpr ⟨_, entry_eq_file_iff.mpr ⟨place, h.placeOf, h.entry, h.endsInDirectory⟩,
    fromUTF8?_toUTF8 text⟩

theorem directories (h : t.Saved t' file text place) (other : List String)
    (hother : t.entryAt? other = some .directory) : t'.entryAt? other = some .directory := by
  have hne : other ≠ place := by
    rintro rfl
    exact h.before hother
  rcases h.others other hne with heq | ⟨hnone, -⟩
  · rw [heq, hother]
  · cases hnone.symm.trans hother

/-- Beside the file that was written, there are the same files as before. -/
theorem file_iff (h : t.Saved t' file text place) {other : List String} (hne : other ≠ place)
    {bytes : ByteArray} :
    t'.entryAt? other = some (.file bytes) ↔ t.entryAt? other = some (.file bytes) :=
  file_iff_of_or (h.others other hne) bytes

/-- Writing the same document once more changes nothing. -/
theorem on_save {j : Json} (h : t.Saved t' file (documentText j) place) (kind : DocumentKind) :
    on (save kind file j) t' = (.ok (), t') := by
  have hentry : t'.entryAt? place ≠ some .directory := by
    rw [h.entry]
    simp
  rw [Store.on_save kind j h.placeOf h.endsInDirectory hentry,
    put_eq_self (ne_nil_of_not_directory hentry) h.entry]

end FileTree.Saved

end Prospectus.Store
