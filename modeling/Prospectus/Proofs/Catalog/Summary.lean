import Mathlib.Algebra.BigOperators.Group.List.Basic
import Mathlib.Algebra.GroupWithZero.Nat
import Mathlib.Data.List.Induction
import Mathlib.Data.List.Nodup
import Prospectus.Proofs.Availability.Listings
import Prospectus.Proofs.Reconcile.Accounting
import Prospectus.Reconcile.Summary

/-!
# The summary of a catalogue is exact

Modules of one year of study need not stand together, so a summary is made by finding the row of
each module and counting it there. The rows that come of it are those of the labels by first
appearance, each with the modules of its label (`foldl_countIn`), and a row holds for every
academic year how many of its modules run (`find?_availability`). What `Summary.ExactFor` says of
a summary follows for every catalogue that is built from captures (`summary_exact`).
-/

namespace Prospectus

open Std

/-! ### First appearances

Labels are kept by first appearance. Removing later repeats from a list has what one expects of
it: nothing is repeated, nothing is lost and the order stays. On such a list of labels, counting by
label and adding up is counting everything once. -/

section

variable {α : Type _} [DecidableEq α] {l : List α} {a : α}

/-- One more item is kept if it is new. -/
theorem eraseDups_concat (l : List α) (a : α) :
    (l ++ [a]).eraseDups = if a ∈ l then l.eraseDups else l.eraseDups ++ [a] := by
  rw [List.eraseDups_append]
  by_cases h : a ∈ l
  · simp [List.removeAll, h]
  · simp [List.removeAll, h, List.eraseDups_cons]

/-- With repeats removed, nothing is repeated. -/
theorem nodup_eraseDups (l : List α) : l.eraseDups.Nodup := by
  induction l using List.reverseRecOn with
  | nil => exact List.nodup_nil
  | append_singleton l a ih =>
    rw [eraseDups_concat]
    split
    · exact ih
    · next h => exact ih.append (List.nodup_singleton a) (by simpa [List.mem_eraseDups] using h)

/-- Removing repeats does not move anything. -/
theorem eraseDups_sublist (l : List α) : l.eraseDups.Sublist l := by
  induction l using List.reverseRecOn with
  | nil => exact List.Sublist.slnil
  | append_singleton l a ih =>
    rw [eraseDups_concat]
    split
    · exact ih.trans (List.sublist_append_left l [a])
    · exact ih.append (List.Sublist.refl [a])

/-- Among items without a repeat, an item is found once. -/
theorem sum_map_eq_one {l : List α} (hl : l.Nodup) (ha : a ∈ l) :
    (l.map fun b => if a = b then 1 else 0).sum = 1 := by
  induction l with
  | nil => cases ha
  | cons b l ih =>
    obtain ⟨hb, hl⟩ := List.nodup_cons.mp hl
    rw [List.map_cons, List.sum_cons]
    rcases List.mem_cons.mp ha with rfl | ha
    · have hzero : (l.map fun b => if a = b then 1 else 0).sum = 0 := by
        refine List.sum_eq_zero fun n hn => ?_
        obtain ⟨c, hc, rfl⟩ := List.mem_map.mp hn
        refine if_neg ?_
        rintro rfl
        exact hb hc
      rw [hzero, if_pos rfl]
    · have hne : a ≠ b := fun heq => hb (heq ▸ ha)
      rw [if_neg hne, ih hl ha]

/-- Counting by label and adding up counts everything, if every item has a label of the list. The
labels of the list must not repeat, or an item would be counted more than once. -/
theorem sum_countP_label {β : Type _} (label : β → α) (p : β → Bool) {labels : List α}
    (hlabels : labels.Nodup) {items : List β} (h : ∀ m ∈ items, label m ∈ labels) :
    (labels.map fun a => items.countP fun m => label m = a && p m).sum = items.countP p := by
  induction items with
  | nil => simp
  | cons m items ih =>
    obtain ⟨hm, hitems⟩ := List.forall_mem_cons.mp h
    have hone : (labels.map fun a => if (decide (label m = a) && p m) = true then 1 else 0).sum =
        if p m = true then 1 else 0 := by
      cases hp : p m with
      | false => simp
      | true => simpa using sum_map_eq_one hlabels hm
    simp only [List.countP_cons]
    rw [List.sum_map_add, ih hitems, hone]

end

namespace StudyYearRow

/-! ### The rows of a list of modules

A module is counted in the first row that has its label, and a label without a row gets one at the
end. The invariant of the loop gives the rows for the modules so far: they are those of the labels
by first appearance, and the row of a label has counted the modules of that label, whatever came
between them. -/

/-- The label of the year of study of a module. -/
abbrev labelOf (m : MergedModule) : String := m.record.yearOfStudy

/-- The row of a label with the modules of that label. -/
def rowOf (ms : List MergedModule) (label : String) : StudyYearRow :=
  (ms.filter fun m => labelOf m = label).foldl count (start label)

/-- Counting does not change the label of a row. -/
theorem yearOfStudy_foldl_count (ms : List MergedModule) (row : StudyYearRow) :
    (ms.foldl count row).yearOfStudy = row.yearOfStudy := by
  induction ms generalizing row with
  | nil => rfl
  | cons m ms ih => exact ih _

/-- The row of a label has that label. -/
@[simp] theorem yearOfStudy_rowOf (ms : List MergedModule) (label : String) :
    (rowOf ms label).yearOfStudy = label :=
  yearOfStudy_foldl_count _ _

/-- One more module is counted in the row of its label only. -/
theorem rowOf_concat (ms : List MergedModule) (m : MergedModule) (label : String) :
    rowOf (ms ++ [m]) label =
      if labelOf m = label then (rowOf ms label).count m else rowOf ms label := by
  rw [rowOf, List.filter_append, List.foldl_append]
  by_cases h : labelOf m = label <;> simp [rowOf, h]

/-- A module is counted in the row of its label, and the other rows stay. A label that has no row
yet gets one at the end. The rows are given as a function of the label, which is what they are
throughout the loop. -/
theorem countIn_map {labels : List String} (hlabels : labels.Nodup) {row : String → StudyYearRow}
    (hrow : ∀ label, (row label).yearOfStudy = label) (m : MergedModule) :
    countIn (labels.map row) m =
      labels.map (fun label => if labelOf m = label then (row label).count m else row label) ++
        if labelOf m ∈ labels then [] else [(start (labelOf m)).count m] := by
  induction labels with
  | nil => rfl
  | cons label labels ih =>
    obtain ⟨hlabel, hlabels⟩ := List.nodup_cons.mp hlabels
    rw [List.map_cons, countIn, hrow]
    split
    · next heq =>
      have hrest : labels.map (fun label => if labelOf m = label then (row label).count m
          else row label) = labels.map row := by
        refine List.map_congr_left fun other hother => if_neg ?_
        rintro rfl
        exact hlabel (heq ▸ hother)
      simp [heq, hrest]
    · next hne =>
      rw [ih hlabels]
      simp [Ne.symm hne]

/-- The rows of some modules are those of their labels, in the order in which the labels appear. -/
theorem foldl_countIn (ms : List MergedModule) :
    ms.foldl countIn [] = ((ms.map labelOf).eraseDups).map (rowOf ms) := by
  induction ms using List.reverseRecOn with
  | nil => rfl
  | append_singleton ms m ih =>
    rw [List.foldl_append, ih, List.map_append, List.map_singleton, eraseDups_concat]
    show countIn _ m = _
    rw [countIn_map (nodup_eraseDups _) (yearOfStudy_rowOf ms)]
    simp only [← rowOf_concat, List.mem_eraseDups]
    split
    · exact List.append_nil _
    · next hnew =>
      have hnone : (ms.filter fun n => labelOf n = labelOf m) = [] := by
        refine List.filter_eq_nil_iff.mpr fun n hn heq => hnew ?_
        rw [← of_decide_eq_true heq]
        exact List.mem_map_of_mem hn
      have hstart : rowOf ms (labelOf m) = start (labelOf m) := by
        rw [rowOf, hnone]
        rfl
      rw [List.map_append, List.map_singleton, rowOf_concat, if_pos rfl, hstart]

/-! ### What a row holds

A row counts modules, and for each academic year the modules that run in it. The second count adds
one for each entry of a list of years, so it is a count of modules only as long as no module lists a
year twice. In a catalogue that is built from captures none does. -/

/-- A row counts every module that it is given. -/
theorem modules_foldl_count (ms : List MergedModule) (row : StudyYearRow) :
    (ms.foldl count row).modules = row.modules + ms.length := by
  induction ms generalizing row with
  | nil => rfl
  | cons m ms ih =>
    rw [List.foldl_cons, ih, List.length_cons]
    show row.modules + 1 + ms.length = _
    omega

/-- The row of a label counts the modules of the label. -/
theorem modules_rowOf (ms : List MergedModule) (label : String) :
    (rowOf ms label).modules = ms.countP fun m => labelOf m = label := by
  rw [rowOf, modules_foldl_count, List.countP_eq_length_filter]
  exact Nat.zero_add _

/-- For each year a row counts how often it is listed. -/
theorem availability_foldl_count (ms : List MergedModule) (row : StudyYearRow) :
    (ms.foldl count row).availability = (ms.flatMap MergedModule.availableYears).foldl
      (fun d y => d.alter y fun n => n.getD 0 + 1) row.availability := by
  induction ms generalizing row with
  | nil => rfl
  | cons m ms ih =>
    rw [List.foldl_cons, ih, List.flatMap_cons, List.foldl_append]
    rfl

/-- Where no module has a year twice, each module counts once in each of its years. -/
theorem length_filter_availableYears {ms : List MergedModule}
    (h : ∀ m ∈ ms, m.availableYears.Nodup) (y : AcademicYear) :
    ((ms.flatMap MergedModule.availableYears).filter fun x => x = y).length =
      ms.countP fun m => decide (y ∈ m.availableYears) := by
  induction ms with
  | nil => rfl
  | cons m ms ih =>
    obtain ⟨hm, hms⟩ := List.forall_mem_cons.mp h
    have hyear : (m.availableYears.filter fun x => x = y).length =
        if y ∈ m.availableYears then 1 else 0 := by
      rw [← hm.count, List.count_eq_length_filter]
      congr 1
    rw [List.flatMap_cons, List.filter_append, List.length_append, ih hms, hyear, List.countP_cons,
      Nat.add_comm]
    simp only [decide_eq_true_eq]

/-- The number of a year is that of the modules that run in it; a year in which none runs has no
number. -/
theorem find?_availability {ms : List MergedModule} (h : ∀ m ∈ ms, m.availableYears.Nodup)
    (label : String) (y : AcademicYear) {n : Nat} :
    (rowOf ms label).availability.find? y = some n ↔
      n = (ms.countP fun m => labelOf m = label && decide (y ∈ m.availableYears)) ∧ 0 < n := by
  have hnodup : ∀ m ∈ ms.filter fun m => labelOf m = label, m.availableYears.Nodup :=
    fun m hm => h m (List.mem_filter.mp hm).1
  have hcount : ((ms.filter fun m => labelOf m = label).countP fun m =>
      decide (y ∈ m.availableYears)) =
        ms.countP fun m => labelOf m = label && decide (y ∈ m.availableYears) := by
    rw [List.countP_filter]
    simp only [Bool.and_comm]
  have hlength := length_filter_availableYears hnodup y
  rw [hcount] at hlength
  have hempty : (start label).availability.find? y = none := rfl
  rw [rowOf, availability_foldl_count, Dict.find?_foldl_count fun x => x, hempty, ← hlength]
  generalize List.filter (fun x => decide (x = y)) _ = runs
  cases runs with
  | nil => simp
  | cons x runs =>
    simp only [reduceCtorEq, if_false, Option.getD_none, Nat.zero_add, Option.some.injEq,
      List.length_cons]
    omega

/-- A year that a row has no number for counts as none. -/
theorem getD_availability {ms : List MergedModule} (h : ∀ m ∈ ms, m.availableYears.Nodup)
    (label : String) (y : AcademicYear) :
    ((rowOf ms label).availability.find? y).getD 0 =
      ms.countP fun m => labelOf m = label && decide (y ∈ m.availableYears) := by
  have hfind := @find?_availability ms h label y
  cases hfound : (rowOf ms label).availability.find? y with
  | some n => exact (hfind.mp hfound).1
  | none =>
    rw [hfound] at hfind
    refine (Nat.eq_zero_of_not_pos fun hpos => ?_).symm
    cases hfind.mpr ⟨rfl, hpos⟩

end StudyYearRow

open StudyYearRow

/-- What a summary says is true of the catalogue, and it says all of it. Every number in a row is
the count of the modules of the catalogue that it speaks of, and sums over the rows count all
modules. -/
structure Summary.ExactFor (s : Summary) (c : Catalog) : Prop where
  total : s.totalModules = c.modules.length
  academicYears : s.academicYears = c.academicYears
  /-- There is one row for each label, by first appearance. -/
  labels : s.rows.map yearOfStudy = (c.modules.map labelOf).eraseDups
  labels_nodup : (s.rows.map yearOfStudy).Nodup
  /-- The digits of the labels do not descend. -/
  digits : (∀ row ∈ s.rows, (studyYearNumber? row.yearOfStudy).isSome) ∧
    KeysAscend (fun row => studyYearNumber? row.yearOfStudy) s.rows
  modules : ∀ row ∈ s.rows,
    row.modules = c.modules.countP fun m => labelOf m = row.yearOfStudy
  modules_sum : (s.rows.map StudyYearRow.modules).sum = s.totalModules
  /-- A row has the years in which some module of its label runs, and no others. -/
  years : ∀ row ∈ s.rows, ∀ y, y ∈ row.availability.keys ↔
    ∃ m ∈ c.modules, labelOf m = row.yearOfStudy ∧ y ∈ m.availableYears
  counts : ∀ row ∈ s.rows, ∀ y n, row.availability.find? y = some n →
    n = c.modules.countP fun m => labelOf m = row.yearOfStudy && decide (y ∈ m.availableYears)
  bounds : ∀ row ∈ s.rows, ∀ y n, row.availability.find? y = some n →
    1 ≤ n ∧ n ≤ row.modules ∧ y ∈ s.academicYears
  /-- For each year the numbers of all rows come to the modules that run in it. -/
  counts_sum : ∀ y, (s.rows.map fun row => (row.availability.find? y).getD 0).sum =
    c.modules.countP fun m => decide (y ∈ m.availableYears)

namespace Catalog

variable {c : Catalog}

/-- The rows of a summary are those of the modules of its catalogue. -/
theorem rows_summary (c : Catalog) :
    c.summary.rows = ((c.modules.map labelOf).eraseDups).map (rowOf c.modules) :=
  foldl_countIn c.modules

/-- The rows of a summary are one for each label. -/
theorem labels_summary (c : Catalog) :
    c.summary.rows.map yearOfStudy = (c.modules.map labelOf).eraseDups := by
  rw [rows_summary, List.map_map]
  exact List.map_id'' (yearOfStudy_rowOf c.modules) _

/-- Each row of a summary is the row of its label, and some module has that label. -/
theorem mem_rows_summary {row : StudyYearRow} (h : row ∈ c.summary.rows) :
    row = rowOf c.modules row.yearOfStudy ∧ ∃ m ∈ c.modules, labelOf m = row.yearOfStudy := by
  rw [rows_summary] at h
  obtain ⟨label, hlabel, rfl⟩ := List.mem_map.mp h
  obtain ⟨m, hm, rfl⟩ := List.mem_map.mp (List.mem_eraseDups.mp hlabel)
  rw [yearOfStudy_rowOf]
  exact ⟨rfl, m, hm, rfl⟩

/-- The digits of the labels are in order as the modules are. -/
theorem InOrder.keysAscend_rows (h : c.InOrder) :
    KeysAscend (fun row => studyYearNumber? row.yearOfStudy) c.summary.rows := by
  have hlabels : (c.modules.map labelOf).Pairwise fun a b =>
      ∀ j ∈ studyYearNumber? a, ∀ k ∈ studyYearNumber? b, j ≤ k :=
    List.pairwise_map.mpr h.keysAscend
  have hrows := hlabels.sublist (eraseDups_sublist _)
  rw [← labels_summary] at hrows
  exact List.pairwise_map.mp hrows

/-- The first number of a row counts the modules of its label. -/
theorem modules_of_mem_rows {row : StudyYearRow} (h : row ∈ c.summary.rows) :
    row.modules = c.modules.countP fun m => labelOf m = row.yearOfStudy := by
  rw [(mem_rows_summary h).1, modules_rowOf, yearOfStudy_rowOf]

/-- In a catalogue of captured years no module lists a year twice. -/
theorem YearsCaptured.nodup_availableYears (h : c.YearsCaptured) :
    ∀ m ∈ c.modules, m.availableYears.Nodup :=
  fun m hm => (h m hm).2.1

/-- The number of a year in a row counts the modules of the label that run in the year. -/
theorem find?_of_mem_rows (hyears : c.YearsCaptured) {row : StudyYearRow}
    (h : row ∈ c.summary.rows) (y : AcademicYear) {n : Nat} :
    row.availability.find? y = some n ↔
      n = (c.modules.countP fun m =>
        labelOf m = row.yearOfStudy && decide (y ∈ m.availableYears)) ∧ 0 < n := by
  rw [(mem_rows_summary h).1, find?_availability hyears.nodup_availableYears, yearOfStudy_rowOf]

/-- A row has a number for the years in which a module of its label runs. -/
theorem mem_keys_of_mem_rows (hyears : c.YearsCaptured) {row : StudyYearRow}
    (h : row ∈ c.summary.rows) (y : AcademicYear) :
    y ∈ row.availability.keys ↔
      ∃ m ∈ c.modules, labelOf m = row.yearOfStudy ∧ y ∈ m.availableYears := by
  simp only [Dict.mem_keys_iff, find?_of_mem_rows hyears h y, exists_eq_left, List.countP_pos_iff,
    Bool.and_eq_true, decide_eq_true_eq]

/-- A number in a row counts some of the modules of the row, and stands under a year of the
catalogue. -/
theorem bounds_of_mem_rows (hyears : c.YearsCaptured) {row : StudyYearRow}
    (hrow : row ∈ c.summary.rows) {y : AcademicYear} {n : Nat}
    (h : row.availability.find? y = some n) :
    1 ≤ n ∧ n ≤ row.modules ∧ y ∈ c.academicYears := by
  obtain ⟨hcount, hpos⟩ := (find?_of_mem_rows hyears hrow y).mp h
  obtain ⟨m, hm, -, hy⟩ := (mem_keys_of_mem_rows hyears hrow y).mp (Dict.mem_keys_iff.mpr ⟨n, h⟩)
  refine ⟨hpos, ?_, (hyears m hm).2.2 y hy⟩
  rw [modules_of_mem_rows hrow, hcount]
  exact List.countP_mono_left fun m _ h => (Bool.and_eq_true_iff.mp h).1

/-- Whatever is counted in each row by its label, the numbers of all rows come to the count over all
modules: every module has its label in some row, and no label has two. -/
theorem sum_rows (p : MergedModule → Bool) {number : StudyYearRow → Nat}
    (h : ∀ label, number (rowOf c.modules label) =
      c.modules.countP fun m => labelOf m = label && p m) :
    (c.summary.rows.map number).sum = c.modules.countP p := by
  have hlabel : ∀ m ∈ c.modules, labelOf m ∈ (c.modules.map labelOf).eraseDups :=
    fun m hm => List.mem_eraseDups.mpr (List.mem_map_of_mem hm)
  rw [rows_summary, List.map_map, ← sum_countP_label labelOf p (nodup_eraseDups _) hlabel]
  exact congrArg List.sum (List.map_congr_left fun label _ => h label)

/-- The summary of a catalogue in order whose years are listed once is exact. -/
theorem exactFor_summary (hyears : c.YearsCaptured) (horder : c.InOrder) :
    c.summary.ExactFor c where
  total := rfl
  academicYears := rfl
  labels := labels_summary c
  labels_nodup := by
    rw [labels_summary]
    exact nodup_eraseDups _
  digits := by
    refine ⟨fun row hrow => ?_, horder.keysAscend_rows⟩
    -- the label of a row is that of some module, and modules in order have digits in theirs
    obtain ⟨-, m, hm, hlabel⟩ := mem_rows_summary hrow
    rw [← hlabel]
    exact MergedModule.hasKey_iff.mp (horder.1 m hm)
  modules _ hrow := modules_of_mem_rows hrow
  modules_sum := by
    have hall : c.modules.countP (fun _ => true) = c.summary.totalModules :=
      congrFun List.countP_true c.modules
    rw [← hall]
    refine sum_rows (fun _ => true) fun label => ?_
    simp only [modules_rowOf, Bool.and_true]
  years _ hrow y := mem_keys_of_mem_rows hyears hrow y
  counts _ hrow y _ h := ((find?_of_mem_rows hyears hrow y).mp h).1
  bounds _ hrow _ _ h := bounds_of_mem_rows hyears hrow h
  counts_sum y :=
    sum_rows _ fun label => getD_availability hyears.nodup_availableYears label y

/-- The summary of every catalogue that is built from captures is exact. -/
theorem summary_exact {e : RulesEquivalence} {snapshots : List Snapshot} {o : Outcome}
    {course school : String} (hr : reconcile e snapshots = .ok o)
    (hb : Catalog.build course school o = .ok c) : c.summary.ExactFor c := by
  obtain ⟨-, -, -, hyears, horder⟩ := ordered_build hr hb
  exact exactFor_summary hyears horder

/-- Modules of two labels of the second year, those of one label with one of the other between. -/
def interleavedCaptures : List Snapshot :=
  [⟨"", ⟨"2025/6"⟩, "", none, [.blank "MTH2" "Year 2P", .blank "MTH1" "Year 2U"]⟩,
    ⟨"", ⟨"2026/7"⟩, "", none, [.blank "MTH3" "Year 2U", .blank "MTH2" "Year 2P"]⟩]

def interleavedCatalog : Catalog :=
  ⟨"", "", [⟨"2025/6"⟩, ⟨"2026/7"⟩], [⟨.blank "MTH1" "Year 2U", [⟨"2025/6"⟩], none⟩,
    ⟨.blank "MTH2" "Year 2P", [⟨"2025/6"⟩, ⟨"2026/7"⟩], none⟩,
    ⟨.blank "MTH3" "Year 2U", [⟨"2026/7"⟩], none⟩]⟩

/-- The third module is counted in the first row. -/
theorem summary_exact_interleaved :
    (∃ o, reconcile .canonical interleavedCaptures = .ok o ∧
      Catalog.build "" "" o = .ok interleavedCatalog) ∧
    (interleavedCatalog.summary.rows.map fun row =>
        (row.yearOfStudy, row.modules, row.availability.entries)) =
      [("Year 2U", 2, [(⟨"2025/6"⟩, 1), (⟨"2026/7"⟩, 1)]),
        ("Year 2P", 1, [(⟨"2025/6"⟩, 1), (⟨"2026/7"⟩, 1)])] ∧
    interleavedCatalog.summary.ExactFor interleavedCatalog := by
  have hmodules : (Outcome.ofWalk .canonical interleavedCaptures).modules =
      interleavedCatalog.modules := by
    decide +kernel
  obtain ⟨o, hr, hb⟩ :=
    Catalog.build_of_ascending (by decide) rfl hmodules (by decide) (by decide)
  exact ⟨⟨o, hr, hb⟩, by decide +kernel, summary_exact hr hb⟩

end Catalog

end Prospectus
