import Prospectus.Proofs.Reconcile.Walk
import Prospectus.Rebuild.Heading

/-! # Rebuilding forgets the order of the captures

Captures are sorted twice, ascending for the walk and descending for the heading. Where labels are
distinct both sorts erase the order of the input; where they are not, the heading does not matter,
since reconciling fails and names the least shared label.

The sorts are stable, so captures with one label would stay in the order in which they were given,
and the last of them would win. That is why shared labels are refused before anything is walked, and
why the label that is named must not depend on the order either: it is the least of all that are
shared, not the first that the program comes across. -/

namespace Prospectus

open Std Scrub Snapshot

/-! ### The heading

Course and school are taken from the newest capture that says something about them, if the settings
leave them open. Newest is by label, so distinct labels leave no choice. -/

theorem Snapshot.Distinct.newestFirst_eq_of_perm {l l' : List Snapshot} (h : l.Perm l')
    (hd : Distinct l) : newestFirst l = newestFirst l' := by
  refine mergeSort_eq_of_perm ?_ ?_ h ?_
  · intro a b c hab hbc
    exact TransCmp.isLE_trans hbc hab
  · intro a b
    exact compare_isLE_total _ _
  · intro a b ha hb hab hba
    exact hd.eq_of_academicYear_eq ha hb (eq_of_isLE_of_isLE hba hab)

theorem latestNamed_eq_of_perm {l l' : List Snapshot} (h : l.Perm l') (hd : Distinct l)
    (text : Snapshot → String) : latestNamed l text = latestNamed l' text := by
  rw [latestNamed, latestNamed, hd.newestFirst_eq_of_perm h]

/-! ### The catalogue

Putting captures together, rebuilding from rules and rebuilding from settings do the same after
different preparations. Scrubbing is one capture at a time, so it goes along with any reordering. -/

theorem assemble_of_leastShared (course school : String) {l : List Snapshot} {y : AcademicYear}
    (h : LeastShared y l) :
    assemble course school l = .error (.reconcile (.sharedAcademicYear y)) := by
  rw [assemble, reconcile_of_leastShared _ h]
  rfl

theorem assemble_perm (course school : String) {l l' : List Snapshot} (h : l.Perm l') :
    assemble course school l = assemble course school l' := by
  rw [assemble, assemble, reconcile_perm _ h]

theorem runPipeline_perm [Pattern.Dialect] (course school : String) (rules : Rules)
    {l l' : List Snapshot} (h : l.Perm l') :
    runPipeline course school rules l = runPipeline course school rules l' := by
  rw [runPipeline, runPipeline]
  refine congrArg _ (funext fun scrubber => ?_)
  exact assemble_perm course school (h.map scrubber.scrubSnapshot)

/-- Scrubbing leaves the labels of captures alone. -/
@[simp] theorem academicYear_map_scrubSnapshot (scrubber : Scrubber) (l : List Snapshot) :
    (l.map scrubber.scrubSnapshot).map academicYear = l.map academicYear := by
  rw [List.map_map]
  rfl

theorem leastShared_map_scrubSnapshot (scrubber : Scrubber) {l : List Snapshot} {y : AcademicYear} :
    LeastShared y (l.map scrubber.scrubSnapshot) ↔ LeastShared y l :=
  leastShared_congr (academicYear_map_scrubSnapshot scrubber l)

theorem distinct_map_scrubSnapshot (scrubber : Scrubber) {l : List Snapshot} :
    Distinct (l.map scrubber.scrubSnapshot) ↔ Distinct l :=
  distinct_congr (academicYear_map_scrubSnapshot scrubber l)

theorem rebuildCatalog_of_leastShared (x : CatalogSettings) (scrubber : Scrubber)
    {l : List Snapshot} {y : AcademicYear} (h : LeastShared y l) :
    rebuildCatalog x scrubber l = .error (.reconcile (.sharedAcademicYear y)) :=
  assemble_of_leastShared _ _ ((leastShared_map_scrubSnapshot scrubber).mpr h)

theorem rebuildCatalog_perm (x : CatalogSettings) (scrubber : Scrubber) {l l' : List Snapshot}
    (h : l.Perm l') : rebuildCatalog x scrubber l = rebuildCatalog x scrubber l' := by
  rcases distinct_or_leastShared l with hd | ⟨y, hy⟩
  · have hmap := h.map scrubber.scrubSnapshot
    have hd := (distinct_map_scrubSnapshot scrubber).mpr hd
    simp only [rebuildCatalog, CatalogSettings.courseFor, CatalogSettings.schoolFor,
      latestNamed_eq_of_perm hmap hd]
    exact assemble_perm _ _ hmap
  · rw [rebuildCatalog_of_leastShared x scrubber hy,
      rebuildCatalog_of_leastShared x scrubber (hy.perm h)]

/-- Two orders of the same captures give one catalogue and outcome, or one error: the least shared
label if two captures share one, and otherwise the module that cannot be put in order. -/
theorem rebuildCatalog_input_order (x : CatalogSettings) (scrubber : Scrubber)
    {l l' : List Snapshot} (h : l.Perm l') :
    rebuildCatalog x scrubber l = rebuildCatalog x scrubber l' ∧
      (¬ Distinct l → ∃ y, LeastShared y l ∧
        rebuildCatalog x scrubber l = .error (.reconcile (.sharedAcademicYear y)) ∧
        rebuildCatalog x scrubber l' = .error (.reconcile (.sharedAcademicYear y))) ∧
      ∀ code label,
        rebuildCatalog x scrubber l = .error (.presentation (.noStudyYearDigit code label)) ↔
        rebuildCatalog x scrubber l' = .error (.presentation (.noStudyYearDigit code label)) := by
  refine ⟨rebuildCatalog_perm x scrubber h, fun hd => ?_, fun code label => ?_⟩
  · obtain ⟨y, hy⟩ := (distinct_or_leastShared l).resolve_left hd
    exact ⟨y, hy, rebuildCatalog_of_leastShared x scrubber hy,
      rebuildCatalog_of_leastShared x scrubber (hy.perm h)⟩
  · rw [rebuildCatalog_perm x scrubber h]

/-- Four captures that share two labels, in two orders. -/
theorem rebuildCatalog_input_order_shared :
    let capture (label course : String) : Snapshot :=
      ⟨course, ⟨label⟩, "", none, [.blank "MTH1" "Year one"]⟩
    let a := capture "2026/7" "A"
    let b := capture "2025/6" "B"
    let c := capture "2026/7" "C"
    let d := capture "2025/6" "D"
    [a, b, c, d].Perm [d, a, c, b] ∧
      rebuildCatalog {} .builtin [a, b, c, d] = rebuildCatalog {} .builtin [d, a, c, b] :=
  ⟨by decide, (rebuildCatalog_input_order {} .builtin (by decide)).1⟩

end Prospectus
