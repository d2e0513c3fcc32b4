import Prospectus.Proofs.Reconcile.Fold

/-!
# Every record is accounted for

A record whose identity is complete is sighted, and any other is listed as skipped, with the place
where it stood. `Outcome.AccountsFor` says that the list of skipped records and the list of repeated
identities are exact: what stands in them, that each entry stands there once, and in which order.
The lists are made snapshot by snapshot,

    mem_skipped_iff : k ∈ d.skipped ↔ k.StandsFor d
    mem_repeated_iff : k ∈ d.repeated ↔ k.StandsFor d

and put one behind the other along the walk. Everything else in an outcome is made of the labels and
of the records that are sighted (`Outcome.ofWalk_congr`), so a skipped record leaves no trace in it.
-/

namespace Prospectus

open Std Snapshot

/-! ### What the lists hold

An entry is described by what it stands for, once for skipped records and once for repeated
identities. `AccountsFor` then is about the lists: their entries are those that stand for something
in the snapshots, and they come in one strict order, which also says that no entry stands twice. -/

/-- The entry stands for a record of the snapshot whose identity lacks a part. -/
structure SkippedRecord.StandsFor (k : SkippedRecord) (d : Snapshot) : Prop where
  year : k.academicYear = d.academicYear
  /-- The index is the place among all records of the snapshot. -/
  record : ∃ r, d.modules[k.index]? = some r ∧ r.identity = k.identity
  blank : Text.IsBlank k.identity.moduleCode ∨ Text.IsBlank k.identity.yearOfStudy
  reason : k.reason = .missingModuleCode ↔ Text.IsBlank k.identity.moduleCode

/-- The entry stands for a complete identity that the snapshot has more than once. -/
structure RepeatedIdentity.StandsFor (k : RepeatedIdentity) (d : Snapshot) : Prop where
  year : k.academicYear = d.academicYear
  complete : k.identity.Complete
  occurrences : k.occurrences = d.modules.countP fun r => r.identity = k.identity
  repeated : 2 ≤ k.occurrences

/-- The lists of an outcome hold what the snapshots have to report, each entry once. That each entry
stands once follows from the strict orders, as no entry comes before itself. -/
structure Outcome.AccountsFor (o : Outcome) (snapshots : List Snapshot) : Prop where
  mem_skipped : ∀ k, k ∈ o.skipped ↔ ∃ d ∈ snapshots, k.StandsFor d
  /-- Skipped records come by label, then by index. -/
  skipped_ascending : o.skipped.Pairwise fun k l =>
    compare k.academicYear l.academicYear = .lt ∨
      k.academicYear = l.academicYear ∧ k.index < l.index
  mem_repeated : ∀ k, k ∈ o.repeated ↔ ∃ d ∈ snapshots, k.StandsFor d
  /-- Repeated identities come by label, then by identity. -/
  repeated_ascending : o.repeated.Pairwise fun k l =>
    compare k.academicYear l.academicYear = .lt ∨
      k.academicYear = l.academicYear ∧ compare k.identity l.identity = .lt

/-! ### Skipped records of a snapshot

A record lacks its code or its label, or both; the code is reported if it is the code or both. The
place of a record counts all records of the snapshot, so it can be found again in the file. -/

theorem Identity.skipReason?_eq_some_iff {i : Identity} {reason : SkipReason} :
    i.skipReason? = some reason ↔
      (Text.IsBlank i.moduleCode ∨ Text.IsBlank i.yearOfStudy) ∧
        (reason = .missingModuleCode ↔ Text.IsBlank i.moduleCode) := by
  by_cases hcode : Text.IsBlank i.moduleCode
  · simp [skipReason?, Complete, hcode, eq_comm]
  · by_cases hyear : Text.IsBlank i.yearOfStudy
    · cases reason <;> simp [skipReason?, Complete, hcode, hyear]
    · simp [skipReason?, Complete, hcode, hyear]

namespace Snapshot

variable {d : Snapshot}

theorem mem_skipped_iff {k : SkippedRecord} : k ∈ d.skipped ↔ k.StandsFor d := by
  simp only [skipped, List.mem_filterMap, Prod.exists, List.mem_zipIdx_iff_getElem?,
    Option.map_eq_some_iff, Identity.skipReason?_eq_some_iff]
  constructor
  · rintro ⟨r, index, hr, reason, ⟨hblank, hreason⟩, rfl⟩
    exact ⟨rfl, ⟨r, hr, rfl⟩, hblank, hreason⟩
  · rintro ⟨hyear, ⟨r, hr, hidentity⟩, hblank, hreason⟩
    refine ⟨r, k.index, hr, k.reason, ?_, ?_⟩
    · rw [hidentity]
      exact ⟨hblank, hreason⟩
    · rw [hidentity, ← hyear]

/-- Records are skipped in the order in which they stand. -/
theorem skipped_ascending (d : Snapshot) : d.skipped.Pairwise fun k l => k.index < l.index := by
  have hplaces : d.modules.zipIdx.Pairwise fun a b => a.2 < b.2 := by
    rw [← List.pairwise_map (f := Prod.snd), List.zipIdx_map_snd]
    exact List.pairwise_lt_range' 1
  refine List.pairwise_filterMap.mpr (hplaces.imp fun {a b} hab k hk l hl => ?_)
  obtain ⟨-, -, rfl⟩ := Option.map_eq_some_iff.mp hk
  obtain ⟨-, -, rfl⟩ := Option.map_eq_some_iff.mp hl
  exact hab

end Snapshot

/-! ### Repeated identities of a snapshot

Occurrences are counted in a dictionary. It holds the number of records of each complete identity,
ascending by identity, and those with a number of two or more are listed. -/

/-- Adding one for each item of a list. -/
theorem foldl_count {γ : Type _} (items : List γ) (n : Option Nat) :
    items.foldl (fun n _ => some (n.getD 0 + 1)) n =
      if items = [] then n else some (n.getD 0 + items.length) := by
  induction items generalizing n with
  | nil => rfl
  | cons e items ih =>
    rw [List.foldl_cons, ih]
    by_cases hnil : items = []
    · simp [hnil]
    · simp only [hnil, if_false, reduceCtorEq, Option.getD_some, List.length_cons]
      congr 1
      omega

/-- Counting items by key adds to the number at each key the items that have it. A key that no item
has keeps what it had, which may be nothing. -/
theorem Dict.find?_foldl_count {κ : Type _} [Ord κ] [TransOrd κ] [LawfulEqOrd κ] [DecidableEq κ]
    {γ : Type _} (key : γ → κ) (items : List γ) (d : Dict κ Nat) (k : κ) :
    (items.foldl (fun d e => d.alter (key e) fun n => n.getD 0 + 1) d).find? k =
      if items.filter (fun e => key e = k) = [] then d.find? k
      else some ((d.find? k).getD 0 + (items.filter fun e => key e = k).length) := by
  have hfilter : (items.filter fun e => compare k (key e) == .eq) =
      items.filter fun e => key e = k := by
    refine List.filter_congr fun e _ => ?_
    rw [Bool.eq_iff_iff, beq_iff_eq, LawfulEqCmp.compare_eq_iff_eq, decide_eq_true_eq, eq_comm]
  rw [find?_foldl_alter, foldl_count, hfilter]

namespace Snapshot

variable {d : Snapshot}

/-- The number at an identity is that of its records, if it is complete and has any. -/
theorem find?_occurrences_eq_some_iff {i : Identity} {n : Nat} :
    d.occurrences.find? i = some n ↔
      i.Complete ∧ n = (d.modules.countP fun r => r.identity = i) ∧ 0 < n := by
  rw [occurrences, Dict.find?_foldl_count Record.identity]
  -- an identity that is not complete is not counted at all
  by_cases hi : i.Complete
  · rw [d.filter_keyed hi, List.countP_eq_length_filter]
    split
    · next hnil => simp [hnil]
    · next hne =>
      have hpos := List.length_pos_iff.mpr hne
      simp only [Dict.find?_empty, Option.getD_none, Nat.zero_add, Option.some.injEq, hi, true_and]
      omega
  · have hnil : (d.keyed.filter fun r => r.identity = i) = [] := by
      refine List.filter_eq_nil_iff.mpr fun r hr hri => hi ?_
      rw [← of_decide_eq_true hri]
      exact of_decide_eq_true (List.mem_filter.mp hr).2
    simp [hnil, hi]

theorem mem_repeated_iff {k : RepeatedIdentity} : k ∈ d.repeated ↔ k.StandsFor d := by
  simp only [repeated, List.mem_filterMap, Prod.exists, Dict.mem_entries_iff,
    find?_occurrences_eq_some_iff]
  constructor
  · rintro ⟨i, n, ⟨hcomplete, hcount, -⟩, hk⟩
    split at hk
    · next hn =>
      cases hk
      exact ⟨rfl, hcomplete, hcount, hn⟩
    · cases hk
  · rintro ⟨hyear, hcomplete, hcount, htwo⟩
    refine ⟨k.identity, k.occurrences, ⟨hcomplete, hcount, by omega⟩, ?_⟩
    rw [if_pos (show k.occurrences > 1 from htwo), ← hyear]

/-- Repeated identities come in the order of identities. -/
theorem repeated_ascending (d : Snapshot) :
    d.repeated.Pairwise fun k l => compare k.identity l.identity = .lt := by
  refine List.pairwise_filterMap.mpr (d.occurrences.ascending.imp fun {a b} hab k hk l hl => ?_)
  obtain ⟨-, hk⟩ := Option.ite_none_right_eq_some.mp hk
  obtain ⟨-, hl⟩ := Option.ite_none_right_eq_some.mp hl
  cases hk
  cases hl
  exact hab

end Snapshot

/-! ### The lists of a walk

Along the walk labels ascend strictly, so putting the lists of the snapshots end to end gives a list
that ascends by label first and by the order within a snapshot second. -/

/-- What is listed snapshot by snapshot along an ascending walk comes by label, and under one label
in the order in which its snapshot has it. -/
theorem pairwise_flatMap_of_ascending {α : Type _} {f : Snapshot → List α}
    {year : α → AcademicYear} {R : α → α → Prop} (hyear : ∀ d, ∀ x ∈ f d, year x = d.academicYear)
    (hR : ∀ d, (f d).Pairwise R) {walk : List Snapshot} (h : Ascending walk) :
    (walk.flatMap f).Pairwise fun x y =>
      compare (year x) (year y) = .lt ∨ year x = year y ∧ R x y := by
  refine List.pairwise_flatMap.mpr ⟨fun d _ => ?_, h.imp fun {c d} hcd x hx y hy => ?_⟩
  · refine (hR d).imp_of_mem fun hx hy hxy => .inr ⟨?_, hxy⟩
    rw [hyear d _ hx, hyear d _ hy]
  · rw [hyear c x hx, hyear d y hy]
    exact .inl hcd

/-- The outcome of an ascending walk accounts for its snapshots. -/
theorem ofWalk_accountsFor (e : RulesEquivalence) {walk snapshots : List Snapshot}
    (hperm : walk.Perm snapshots) (h : Ascending walk) :
    (Outcome.ofWalk e walk).AccountsFor snapshots where
  mem_skipped k := by
    simp only [Outcome.ofWalk, List.mem_flatMap, hperm.mem_iff, mem_skipped_iff]
  skipped_ascending :=
    pairwise_flatMap_of_ascending (fun _ _ hk => (mem_skipped_iff.mp hk).year)
      Snapshot.skipped_ascending h
  mem_repeated k := by
    simp only [Outcome.ofWalk, List.mem_flatMap, hperm.mem_iff, mem_repeated_iff]
  repeated_ascending :=
    pairwise_flatMap_of_ascending (fun _ _ hk => (mem_repeated_iff.mp hk).year)
      Snapshot.repeated_ascending h

/-! ### What is skipped leaves no trace

Two lists of snapshots say the same if they agree in the labels and in the complete records. The
statement is about two runs: whatever else the snapshots hold, the outcomes differ in the skipped
records only. It covers captures from which such records were removed, and those to which any number
of them were added, at any place. -/

namespace Snapshot

/-- What a snapshot says apart from the records that are skipped: its label, and its complete
records in order. -/
def said (d : Snapshot) : AcademicYear × List Record := (d.academicYear, d.keyed)

section

variable {l l' : List Snapshot}

theorem forall₂_said_iff :
    List.Forall₂ (fun c d => said c = said d) l' l ↔ l'.map said = l.map said := by
  rw [← List.forall₂_eq_eq_eq, List.forall₂_map_left_iff, List.forall₂_map_right_iff]

/-- What is made of each snapshot's label and complete records is the same for snapshots that say
the same. -/
theorem map_eq_of_said {α : Type _} {f : Snapshot → α}
    (hf : ∀ c d : Snapshot, c.academicYear = d.academicYear → c.keyed = d.keyed → f c = f d)
    (h : l'.map said = l.map said) : l'.map f = l.map f := by
  refine map_eq_of_forall₂ (fun c d hcd => ?_) (forall₂_said_iff.mpr h)
  obtain ⟨hyear, hkeyed⟩ := Prod.mk.inj hcd
  exact hf c d hyear hkeyed

theorem Distinct.of_said (h : l'.map said = l.map said) (hd : Distinct l) : Distinct l' := by
  rwa [Distinct, map_eq_of_said (fun _ _ hyear _ => hyear) h]

/-- The order of the walk hangs on the labels. -/
theorem map_said_walk (h : l'.map said = l.map said) : (walk l').map said = (walk l).map said := by
  have hsaid := forall₂_said_iff.mpr h
  exact forall₂_said_iff.mp (forall₂_walk (fun _ _ hcd => congrArg Prod.fst hcd) hsaid)

end

end Snapshot

/-- An outcome is made of what the snapshots say, the list of skipped records apart. So two lists of
snapshots that say the same have one outcome but for that list. -/
theorem Outcome.ofWalk_congr (e : RulesEquivalence) {l l' : List Snapshot}
    (h : l'.map said = l.map said) :
    Outcome.ofWalk e l' = { Outcome.ofWalk e l with skipped := l'.flatMap Snapshot.skipped } := by
  have hyears : l'.map academicYear = l.map academicYear :=
    map_eq_of_said (fun _ _ hyear _ => hyear) h
  have hsightings : sightings l' = sightings l := by
    refine congrArg List.flatten (map_eq_of_said (fun c d hyear hkeyed => ?_) h)
    rw [hyear, hkeyed]
  have hrepeated : l'.flatMap Snapshot.repeated = l.flatMap Snapshot.repeated := by
    refine congrArg List.flatten (map_eq_of_said (fun c d hyear hkeyed => ?_) h)
    simp only [Snapshot.repeated, occurrences, hyear, hkeyed]
  simp only [Outcome.ofWalk, Observation.foldl_observe, hsightings, hyears, hrepeated]

/-- Snapshots without a shared label reconcile to an outcome that accounts for all their records.
Records that are skipped make no difference to it but for their own list: other snapshots with the
same labels and complete records come to the same outcome otherwise. -/
theorem exists_accountsFor_reconcile (e : RulesEquivalence) {snapshots : List Snapshot}
    (h : Distinct snapshots) :
    ∃ o, reconcile e snapshots = .ok o ∧ o.AccountsFor snapshots ∧
      ∀ others : List Snapshot, others.map said = snapshots.map said →
        ∃ skipped, reconcile e others = .ok { o with skipped } := by
  refine ⟨.ofWalk e (walk snapshots), reconcile_of_distinct e h,
    ofWalk_accountsFor e (walk_perm snapshots) h.walk_ascending, fun others hsaid => ?_⟩
  refine ⟨(walk others).flatMap Snapshot.skipped, ?_⟩
  rw [reconcile_of_distinct e (h.of_said hsaid), Outcome.ofWalk_congr e (map_said_walk hsaid)]

/-- A capture in which a module stands twice, with records between whose identity lacks a part. -/
def patchyCapture : Snapshot :=
  ⟨"", ⟨"2026/7"⟩, "", none, [.blank "" "Year 1", .blank "MTH1" "Year 1", .blank "MTH1" "\u00a0",
    .blank "MTH1" "Year 1"]⟩

theorem exists_accountsFor_reconcile_patchy :
    let early : Snapshot := ⟨"", ⟨"2025/6"⟩, "", none, [.blank " " ""]⟩
    let others : List Snapshot := [{ patchyCapture with modules := patchyCapture.keyed },
      { early with modules := [] }]
    Distinct [patchyCapture, early] ∧ others.map said = [patchyCapture, early].map said ∧
      ∃ o, reconcile .canonical [patchyCapture, early] = .ok o ∧
        o.AccountsFor [patchyCapture, early] ∧
        ∃ skipped, reconcile .canonical others = .ok { o with skipped } := by
  intro early others
  have hd : Distinct [patchyCapture, early] := by decide
  have hsaid : others.map said = [patchyCapture, early].map said := by decide
  obtain ⟨o, ho, haccounts, hothers⟩ := exists_accountsFor_reconcile .canonical hd
  exact ⟨hd, hsaid, o, ho, haccounts, hothers others hsaid⟩

end Prospectus
