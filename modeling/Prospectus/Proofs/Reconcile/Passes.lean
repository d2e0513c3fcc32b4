import Prospectus.Reconcile.Outcome

/-!
# The walk in passes

The walk goes through the snapshots once and keeps three things up to date while it reads a record:
what has been found, what was skipped, and how often each identity has stood in this snapshot. None
of the three looks at another, so the one loop comes to the same as a pass of its own for each:

    Visit.read      one record            Visit.foldl_read        the records of a snapshot
    Gathered.visit  one snapshot          Gathered.foldl_visit    all snapshots

`Snapshot.observe`, `Snapshot.skipped` and `Snapshot.repeated` are the passes over one snapshot.
What is proved about reconciling is proved about them.
-/

namespace Prospectus

/-! ### The passes over one snapshot

Each pass is a function of the snapshot, or adds to what was found before, and reads nothing that
another pass writes. -/

namespace Snapshot

/-- The records of a snapshot that have a complete identity. -/
def keyed (s : Snapshot) : List Record := s.modules.filter fun r => r.identity.Complete

/-- The records of a snapshot that have no complete identity. -/
def skipped (s : Snapshot) : List SkippedRecord :=
  s.modules.zipIdx.filterMap fun (r, index) =>
    r.identity.skipReason?.map fun reason => ⟨s.academicYear, index, r.identity, reason⟩

/-- How often each complete identity stands in a snapshot. -/
def occurrences (s : Snapshot) : Dict Identity Nat :=
  s.keyed.foldl (fun d r => d.alter r.identity fun n => n.getD 0 + 1) ∅

/-- The complete identities that stand more than once in a snapshot, ascending. -/
def repeated (s : Snapshot) : List RepeatedIdentity :=
  s.occurrences.entries.filterMap fun (identity, n) =>
    if n > 1 then some ⟨s.academicYear, identity, n⟩ else none

/-- Add the records of a snapshot to the observations. -/
def observe (found : Dict Identity Observation) (s : Snapshot) : Dict Identity Observation :=
  s.keyed.foldl (fun d r => d.alter r.identity (Observation.observe s.academicYear r)) found

end Snapshot

/-! ### One record

A record is skipped or observed, and which of the two hangs on its identity alone. -/

theorem Identity.skipReason?_eq_none_iff {i : Identity} : i.skipReason? = none ↔ i.Complete := by
  by_cases hi : i.Complete
  · simp [skipReason?, hi]
  · -- one part is missing or the other, and there is a reason for either
    rw [skipReason?, if_neg hi]
    split <;> simp [hi]

namespace Visit

theorem read_of_complete (year : AcademicYear) (v : Visit) {r : Record} (index : Nat)
    (h : r.identity.Complete) :
    v.read year r index = { v with
      occurrences := v.occurrences.alter r.identity fun n => n.getD 0 + 1
      found := v.found.alter r.identity (Observation.observe year r) } := by
  rw [read, Identity.skipReason?_eq_none_iff.mpr h]

theorem read_of_skipReason (year : AcademicYear) (v : Visit) {r : Record} (index : Nat)
    {reason : SkipReason} (h : r.identity.skipReason? = some reason) :
    v.read year r index =
      { v with skipped := v.skipped ++ [⟨year, index, r.identity, reason⟩] } := by
  rw [read, h]

/-! ### The records of a snapshot

The statement is about the loop from any state, as the induction on the records needs it: what is
found and listed so far is carried along and added to. -/

/-- The loop over records with their places, from any state: the complete ones among them are
counted and observed, the others are listed, and what was repeated in earlier snapshots stays. -/
theorem foldl_read (year : AcademicYear) (entries : List (Record × Nat)) (v : Visit) :
    entries.foldl (fun v (r, index) => v.read year r index) v =
      let keyed := (entries.map Prod.fst).filter fun r => r.identity.Complete
      { found := keyed.foldl (fun d r => d.alter r.identity (Observation.observe year r)) v.found
        skipped := v.skipped ++ entries.filterMap fun (r, index) =>
          r.identity.skipReason?.map fun reason => ⟨year, index, r.identity, reason⟩
        repeated := v.repeated
        occurrences :=
          keyed.foldl (fun d r => d.alter r.identity fun n => n.getD 0 + 1) v.occurrences } := by
  induction entries generalizing v with
  | nil => simp
  | cons entry entries ih =>
    obtain ⟨r, index⟩ := entry
    rw [List.foldl_cons, ih]
    cases hreason : r.identity.skipReason? with
    | none =>
      have hcomplete := Identity.skipReason?_eq_none_iff.mp hreason
      simp [read_of_complete year v index hcomplete, hcomplete, hreason]
    | some reason =>
      have hincomplete : ¬ r.identity.Complete := fun hcomplete => by
        rw [Identity.skipReason?_eq_none_iff.mpr hcomplete] at hreason
        cases hreason
      simp [read_of_skipReason year v index hreason, hincomplete, hreason]

end Visit

/-! ### The snapshots of a walk

At the end of a snapshot, the identities that stood in it more than once are listed, and the count
starts anew. So the counts of one snapshot do not reach the next one, and a visit is a function of
what was gathered before and of the snapshot. -/

namespace Gathered

/-- A visit adds to each part of what has been gathered what the pass for it gives. -/
theorem visit_eq (g : Gathered) (s : Snapshot) :
    g.visit s = {
      found := s.observe g.found
      skipped := g.skipped ++ s.skipped
      repeated := g.repeated ++ s.repeated } := by
  have hmodules : s.modules.zipIdx.map Prod.fst = s.modules := List.zipIdx_map_fst 0 s.modules
  simp only [visit, Visit.foldl_read, hmodules]
  rfl

theorem foldl_visit (walk : List Snapshot) (g : Gathered) :
    walk.foldl visit g = {
      found := walk.foldl Snapshot.observe g.found
      skipped := g.skipped ++ walk.flatMap Snapshot.skipped
      repeated := g.repeated ++ walk.flatMap Snapshot.repeated } := by
  induction walk generalizing g with
  | nil => simp
  | cons s walk ih => simp [visit_eq, ih]

end Gathered

end Prospectus
