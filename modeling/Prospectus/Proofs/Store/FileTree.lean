import Prospectus.Proofs.Sorting
import Prospectus.Proofs.Store.Path
import Prospectus.Proofs.Traversal
import Prospectus.Store.FileTree

/-!
# What writing does to a file tree

A path leads to the same place as long as all directories stay (`placeOf_of_directories`). Making
directories only adds directories (`grows_makeDirectory`), and none where a path already leads on
(`makeDirectory_parent`). After a file was written its path gives the text back (`readText_put`),
and writing the same text once more changes nothing (`put_eq_self`).
-/

namespace Prospectus.Store

open Store.Path (IsName)

namespace FileTree

variable {t t' : FileTree} {p q : Path} {place : List String}

/-! ### Paths that lead into the tree

A path is checked before it is followed: it must not be empty, absolute, or have a null character in
it. Following it then goes step by step from the top of the tree. -/

theorem checkPath_eq_ok_iff :
    checkPath p = .ok () ↔ p.isSound = true ∧ p.text ≠ "" ∧ p.isAbsolute = false := by
  unfold checkPath
  split_ifs with hsound hempty
  · simp_all
  · simp only [false_iff, not_and, Bool.not_eq_false]
    intro _ hne
    simpa [hne] using hempty
  · simp_all

theorem checkPath_parent (h : checkPath p = .ok ()) (hq : p.parent? = some q) (hne : q.text ≠ "") :
    checkPath q = .ok () := by
  obtain ⟨hsound, -, habsolute⟩ := checkPath_eq_ok_iff.mp h
  have hbegin := Path.parent_prefix hq
  refine checkPath_eq_ok_iff.mpr ⟨?_, hne, ?_⟩
  · simp only [Path.isSound, Bool.not_eq_true', List.contains_eq_mem, decide_eq_false_iff_not]
      at hsound ⊢
    exact fun hmem => hsound (hbegin.subset hmem)
  · rw [Path.isAbsolute, ← Bool.not_eq_true, Text.startsWith_iff] at habsolute ⊢
    exact fun hlead => habsolute (hlead.trans hbegin)

theorem checkPath_join (h : checkPath p = .ok ()) {name : String} (hname : IsName name) :
    checkPath (p.join ⟨name⟩) = .ok () := by
  obtain ⟨hsound, hne, habsolute⟩ := checkPath_eq_ok_iff.mp h
  obtain ⟨rest, htext, hrest⟩ := Path.toList_join hne hname
  -- the joined path begins with the directory, so what is wrong with its start was wrong before
  have hbegin : p.text.toList <+: (p.join ⟨name⟩).text.toList := by
    rcases hrest with hrest | hrest
    · exact ⟨'/' :: name.toList, by rw [htext, hrest]⟩
    · exact ⟨name.toList, by rw [htext, hrest, List.append_assoc, List.singleton_append]⟩
  -- no NUL in either part, not empty, and not beginning with a slash
  refine checkPath_eq_ok_iff.mpr ⟨?_, ?_, ?_⟩
  · have hrest' : rest ⊆ p.text.toList := by
      rcases hrest with hrest | hrest <;> simp [hrest]
    simp only [Path.isSound, Bool.not_eq_true', List.contains_eq_mem, decide_eq_false_iff_not]
      at hsound ⊢
    rw [htext, List.mem_append, List.mem_cons]
    rintro (hmem | hmem | hmem)
    · exact hsound (hrest' hmem)
    · cases hmem
    · exact hname.sound hmem
  · rw [Ne, ← String.toList_eq_nil_iff, htext]
    simp
  · rw [Path.isAbsolute, ← Bool.not_eq_true, Text.startsWith_iff] at habsolute ⊢
    have hlength : ['/'].length ≤ p.text.toList.length := by
      rw [List.length_singleton, Nat.one_le_iff_ne_zero, Ne, List.length_eq_zero_iff,
        String.toList_eq_nil_iff]
      exact hne
    exact fun hlead => habsolute (List.prefix_of_prefix_length_le hlead hbegin hlength)

theorem placeOf_eq_ok_iff :
    t.placeOf p = .ok place ↔ checkPath p = .ok () ∧ t.follow [] p.steps = .ok place := by
  rw [placeOf, bind_eq_ok_iff]
  constructor
  · rintro ⟨⟨⟩, hcheck, h⟩
    exact ⟨hcheck, h⟩
  · rintro ⟨hcheck, h⟩
    exact ⟨(), hcheck, h⟩

/-! ### Following steps

A step into a name can be taken from any directory, whether or not something stands under the name;
only a further step asks for that. So a path may lead to a place where nothing stands yet, which is
how files are made. -/

/-- A step can only be taken from a directory. -/
theorem follow_into (t : FileTree) (start : List String) (name : String) :
    t.follow start [.into name] = .ok place ↔
      t.entryAt? start = some .directory ∧ place = start ++ [name] := by
  rw [follow]
  cases t.entryAt? start with
  | none => simp
  | some e =>
    cases e with
    | file bytes => simp
    | directory => simp [follow, eq_comm]

theorem follow_up (t : FileTree) (start : List String) :
    t.follow start [.up] = .ok place ↔
      t.entryAt? start = some .directory ∧ start ≠ [] ∧ place = start.dropLast := by
  rw [follow]
  cases t.entryAt? start with
  | none => simp
  | some e =>
    cases e with
    | file bytes => simp
    | directory => by_cases hroot : start = [] <;> simp [follow, hroot, eq_comm]

theorem follow_cons (t : FileTree) (start : List String) (step : Path.Step)
    (steps : List Path.Step) :
    t.follow start (step :: steps) =
      t.follow start [step] >>= fun next => t.follow next steps := by
  cases step with
  | into name =>
    rw [follow, follow]
    split <;> rfl
  | up =>
    rw [follow, follow]
    split
    · rfl
    · rfl
    · split_ifs <;> rfl

theorem follow_append (t : FileTree) (start : List String) (steps rest : List Path.Step) :
    t.follow start (steps ++ rest) =
      t.follow start steps >>= fun next => t.follow next rest := by
  induction steps generalizing start with
  | nil => rfl
  | cons step steps ih =>
    rw [List.cons_append, follow_cons, follow_cons t start step steps, bind_assoc]
    exact congrArg _ (funext ih)

theorem isDirectory_of_follow_cons {start : List String} {step : Path.Step}
    {steps : List Path.Step} (h : t.follow start (step :: steps) = .ok place) :
    t.entryAt? start = some .directory := by
  rw [follow_cons] at h
  obtain ⟨next, hstep, -⟩ := bind_eq_ok_iff.mp h
  cases step with
  | into name => exact ((follow_into t start name).mp hstep).1
  | up => exact ((follow_up t start).mp hstep).1

/-- A name in a directory leads to the place of that name in the place of the directory. -/
theorem placeOf_join (h : t.placeOf p = .ok place) (hdir : t.entryAt? place = some .directory)
    {name : String} (hname : IsName name) :
    t.placeOf (p.join ⟨name⟩) = .ok (place ++ [name]) := by
  obtain ⟨hcheck, hfollow⟩ := placeOf_eq_ok_iff.mp h
  have hne := (checkPath_eq_ok_iff.mp hcheck).2.1
  refine placeOf_eq_ok_iff.mpr ⟨checkPath_join hcheck hname, ?_⟩
  rw [Path.steps_join hne hname, follow_append, hfollow]
  exact (follow_into t place name).mpr ⟨hdir, rfl⟩

/-! ### Trees with more directories

Two relations between trees, before and after: one in which all directories stay, under which paths
lead to where they led, and one in which only directories are added. -/

/-- Everything stays as it is, and what comes new are directories. So every file has the same
content afterwards, and every path leads to where it led. -/
def Grows (t t' : FileTree) : Prop :=
  ∀ place, t'.entryAt? place = t.entryAt? place ∨
    t.entryAt? place = none ∧ t'.entryAt? place = some .directory

theorem Grows.refl (t : FileTree) : t.Grows t := fun _ => .inl rfl

theorem Grows.trans {t'' : FileTree} (h : t.Grows t') (h' : t'.Grows t'') : t.Grows t'' := by
  intro place
  rcases h' place with heq' | ⟨hnone, hdir⟩
  · rw [heq']
    exact h place
  · rcases h place with heq | ⟨-, hdir'⟩
    · exact .inr ⟨heq ▸ hnone, hdir⟩
    · cases hnone.symm.trans hdir'

/-- A place that stays, or where only a directory comes new, has the same file as before. -/
theorem file_iff_of_or (h : t'.entryAt? place = t.entryAt? place ∨
    t.entryAt? place = none ∧ t'.entryAt? place = some .directory) (bytes : ByteArray) :
    t'.entryAt? place = some (.file bytes) ↔ t.entryAt? place = some (.file bytes) := by
  rcases h with heq | ⟨hnone, hdir⟩
  · rw [heq]
  · simp [hnone, hdir]

/-- A path leads to the same place where all directories stay. -/
theorem follow_of_directories
    (h : ∀ place, t.entryAt? place = some .directory → t'.entryAt? place = some .directory)
    {start : List String} {steps : List Path.Step} (hfollow : t.follow start steps = .ok place) :
    t'.follow start steps = .ok place := by
  induction steps generalizing start with
  | nil => exact hfollow
  | cons step steps ih =>
    rw [follow_cons] at hfollow ⊢
    obtain ⟨next, hstep, hrest⟩ := bind_eq_ok_iff.mp hfollow
    refine bind_eq_ok_iff.mpr ⟨next, ?_, ih hrest⟩
    -- each step needs a directory to stand in, and the directories of `t` are there in `t'`
    cases step with
    | into name =>
      obtain ⟨hdir, hnext⟩ := (follow_into t start name).mp hstep
      exact (follow_into t' start name).mpr ⟨h start hdir, hnext⟩
    | up =>
      obtain ⟨hdir, hnext⟩ := (follow_up t start).mp hstep
      exact (follow_up t' start).mpr ⟨h start hdir, hnext⟩

theorem placeOf_of_directories
    (h : ∀ place, t.entryAt? place = some .directory → t'.entryAt? place = some .directory)
    (hplace : t.placeOf p = .ok place) : t'.placeOf p = .ok place := by
  obtain ⟨hcheck, hfollow⟩ := placeOf_eq_ok_iff.mp hplace
  exact placeOf_eq_ok_iff.mpr ⟨hcheck, follow_of_directories h hfollow⟩

theorem grows_put_directory (hne : place ≠ []) (h : t.entryAt? place = none) :
    t.Grows (t.put place .directory) := by
  intro other
  rw [entryAt?_put t hne]
  split_ifs with hother
  · subst hother
    exact .inr ⟨h, rfl⟩
  · exact .inl rfl

theorem grows_makeAlong (t : FileTree) (start : List String) (steps : List Path.Step) :
    t.Grows (t.makeAlong start steps).1 := by
  induction steps generalizing t start with
  | nil => exact .refl t
  | cons step steps ih =>
    cases step with
    | up =>
      rw [makeAlong]
      split_ifs
      · exact .refl t
      · exact ih t _
    | into name =>
      rw [makeAlong]
      -- a directory is there, a file is in the way, or a directory is made
      split
      · exact ih t _
      · exact .refl t
      · next hnone => exact (grows_put_directory (by simp) hnone).trans (ih _ _)

theorem grows_makeDirectory (t : FileTree) (p : Path) : t.Grows (t.makeDirectory p).1 := by
  unfold makeDirectory
  split_ifs
  · exact .refl t
  · split
    · exact .refl t
    · exact grows_makeAlong t [] p.steps

/-- Where steps lead on, all directories are there already. -/
theorem makeAlong_of_follow {start : List String} {steps : List Path.Step} {step : Path.Step}
    (h : t.follow start (steps ++ [step]) = .ok place) :
    t.makeAlong start steps = (t, .ok ()) := by
  induction steps generalizing start with
  | nil => rfl
  | cons first steps ih =>
    rw [List.cons_append, follow_cons] at h
    obtain ⟨next, hfirst, hrest⟩ := bind_eq_ok_iff.mp h
    -- all but the last step of a path that leads somewhere go through directories that are there
    cases first with
    | up =>
      obtain ⟨-, hne, rfl⟩ := (follow_up t start).mp hfirst
      rw [makeAlong, if_neg hne, ih hrest]
    | into name =>
      obtain ⟨-, rfl⟩ := (follow_into t start name).mp hfirst
      have hdir : t.entryAt? (start ++ [name]) = some .directory := by
        cases steps with
        | nil => exact isDirectory_of_follow_cons hrest
        | cons second steps => exact isDirectory_of_follow_cons hrest
      rw [makeAlong, hdir]
      exact ih hrest

/-- The directory of a path that leads into the tree does not have to be made. Following the path
has asked for each directory on the way. -/
theorem makeDirectory_parent (h : t.placeOf p = .ok place) (hend : p.endsInDirectory = false)
    (hq : p.parent? = some q) : t.makeDirectory q = (t, .ok ()) := by
  obtain ⟨hcheck, hfollow⟩ := placeOf_eq_ok_iff.mp h
  obtain ⟨step, hsteps⟩ := Path.exists_steps_parent hend hq
  unfold makeDirectory
  split_ifs with hempty
  · rfl
  · rw [checkPath_parent hcheck hq (by simpa using hempty)]
    rw [hsteps] at hfollow
    exact makeAlong_of_follow hfollow

/-! ### Reading and writing

Writing puts a file at the place of a path. It is refused at the place of a directory, so all
directories stay, and the path leads to the same place afterwards. -/

theorem entry_eq_file_iff {bytes : ByteArray} :
    t.entry p = .ok (.file bytes) ↔ ∃ place, t.placeOf p = .ok place ∧
      t.entryAt? place = some (.file bytes) ∧ p.endsInDirectory = false := by
  rw [entry, bind_eq_ok_iff]
  refine exists_congr fun place => and_congr_right fun _ => ?_
  cases t.entryAt? place with
  | none => simp [throw, throwThe, MonadExceptOf.throw]
  | some e =>
    cases e with
    | directory => simp [pure, Except.pure]
    | file bytes' =>
      cases p.endsInDirectory <;> simp [pure, Except.pure, throw, throwThe, MonadExceptOf.throw]

theorem readText_eq_ok_iff {text : String} :
    t.readText p = .ok text ↔
      ∃ bytes, t.entry p = .ok (.file bytes) ∧ String.fromUTF8? bytes = some text := by
  rw [readText, bind_eq_ok_iff]
  constructor
  · rintro ⟨e, he, h⟩
    cases e with
    | directory => cases h
    | file bytes =>
      refine ⟨bytes, he, ?_⟩
      cases htext : String.fromUTF8? bytes with
      | none => simp [htext, throw, throwThe, MonadExceptOf.throw] at h
      | some text' => simpa [htext, pure, Except.pure] using h
  · rintro ⟨bytes, he, htext⟩
    exact ⟨.file bytes, he, by simp [htext, pure, Except.pure]⟩

theorem readText_congr (h : t'.entry p = t.entry p) : t'.readText p = t.readText p := by
  rw [readText, readText, h]

theorem writeText_eq_ok_iff {text : String} :
    t.writeText p text = .ok t' ↔ ∃ place, t.placeOf p = .ok place ∧
      p.endsInDirectory = false ∧ t.entryAt? place ≠ some .directory ∧
      t' = t.put place (.file text.toUTF8) := by
  rw [writeText, writeBytes, bind_eq_ok_iff]
  -- the place is known; what is left is what the path may not end in and what may not stand there
  refine exists_congr fun place => and_congr_right fun _ => ?_
  cases p.endsInDirectory with
  | true =>
    simp only [Bool.true_eq_false, false_and, iff_false]
    exact nofun
  | false =>
    cases t.entryAt? place with
    | none => simp [pure, Except.pure, eq_comm]
    | some e =>
      cases e with
      | file bytes => simp [pure, Except.pure, eq_comm]
      | directory => simp [throw, throwThe, MonadExceptOf.throw]

theorem ne_nil_of_not_directory (h : t.entryAt? place ≠ some .directory) : place ≠ [] := by
  rintro rfl
  exact h (if_pos rfl)

/-- A file takes the place of no directory. -/
theorem directories_put_file (h : t.entryAt? place ≠ some .directory) (bytes : ByteArray)
    (other : List String) (hother : t.entryAt? other = some .directory) :
    (t.put place (.file bytes)).entryAt? other = some .directory := by
  rw [entryAt?_put t (ne_nil_of_not_directory h), if_neg]
  · exact hother
  · rintro rfl
    exact h hother

theorem put_eq_self {e : Entry} (hne : place ≠ []) (h : t.entryAt? place = some e) :
    t.put place e = t := by
  have hentries : t.entries.insert place e = t.entries := by
    refine Dict.ext_find? fun other => ?_
    rw [Dict.find?_insert]
    split_ifs with hother
    · obtain rfl := Std.LawfulEqOrd.eq_of_compare hother
      rw [entryAt?, if_neg hne] at h
      exact h.symm
    · rfl
  rw [put, hentries]

theorem fromUTF8?_toUTF8 (text : String) : String.fromUTF8? text.toUTF8 = some text := by
  rw [String.fromUTF8?, dif_pos]
  rfl

/-- What was written is read. The text goes into bytes and comes back from them, and the path leads
to the place where they were put. -/
theorem readText_put {text : String} (hplace : t.placeOf p = .ok place)
    (hend : p.endsInDirectory = false) (h : t.entryAt? place ≠ some .directory) :
    (t.put place (.file text.toUTF8)).readText p = .ok text := by
  refine readText_eq_ok_iff.mpr ⟨text.toUTF8, entry_eq_file_iff.mpr ⟨place, ?_, ?_, hend⟩,
    fromUTF8?_toUTF8 text⟩
  · exact placeOf_of_directories (directories_put_file h _) hplace
  · rw [entryAt?_put t (ne_nil_of_not_directory h), if_pos rfl]

end FileTree

end Prospectus.Store
