import Prospectus.Proofs.Sorting
import Prospectus.Proofs.Traversal
import Prospectus.Reconcile.Presentation

/-!
# What putting modules in order gives

Keys are compared field by field, the year of study first, so two modules of one key have one
identity. `present` pairs the modules with their keys and sorts the pairs:

    modules ──mapM sortKey──▶ keyed modules ──mergeSort──▶ sorted pairs ──map snd──▶ modules

What comes out are the same modules by ascending key (`present_spec`), and modules of one key stay
in the order of the input (`filter_present`). Where identities are distinct keys ascend strictly
(`present_ascending`), so the order of the input does not show (`present_eq_of_perm`); modules that
stand in order stay as they are (`present_eq_self`). `present_sorts` puts this together.
-/

namespace Prospectus

open Std

/-! ### Sort keys

A sort key has four fields and is compared as a tuple of them. The last two are the identity of the
module, and the first is the digit of the second part of it, so the key adds only the rank of the
section to what the identity says. Two modules with one key hence have one identity, and the other
way round two modules of one identity differ in their keys by the rank at most. -/

namespace SortKey

/-- Keys are compared like tuples, field by field. -/
theorem compare_eq (a b : SortKey) :
    compare a b = (compare a.studyYear b.studyYear).then
      ((compare a.sectionRank b.sectionRank).then
        ((compare a.moduleCode b.moduleCode).then (compare a.yearOfStudy b.yearOfStudy))) :=
  rfl

instance : LawfulEqOrd SortKey where
  eq_of_compare {a b} h := by
    rw [compare_eq, Ordering.then_eq_eq, Ordering.then_eq_eq, Ordering.then_eq_eq] at h
    obtain ⟨n, r, c, y⟩ := a
    obtain ⟨n', r', c', y'⟩ := b
    obtain rfl : n = n' := LawfulEqOrd.eq_of_compare h.1
    obtain rfl : r = r' := LawfulEqOrd.eq_of_compare h.2.1
    obtain rfl : c = c' := LawfulEqOrd.eq_of_compare h.2.2.1
    obtain rfl : y = y' := LawfulEqOrd.eq_of_compare h.2.2.2
    rfl

/-- The identity that a key has in it. -/
def identity (k : SortKey) : Identity := ⟨k.moduleCode, k.yearOfStudy⟩

/-- Keys ascend by year of study, then by the rank of the section, then by identity. -/
theorem compare_eq_lt_iff {a b : SortKey} :
    compare a b = .lt ↔ a.studyYear < b.studyYear ∨ a.studyYear = b.studyYear ∧
      (a.sectionRank < b.sectionRank ∨ a.sectionRank = b.sectionRank ∧
        compare a.identity b.identity = .lt) := by
  rw [compare_eq, Ordering.then_eq_lt, Ordering.then_eq_lt, Nat.compare_eq_lt, Nat.compare_eq_eq,
    Nat.compare_eq_lt, Nat.compare_eq_eq]
  rfl

end SortKey

namespace MergedModule

variable {m n : MergedModule}

/-- The year of study of a module is the first digit of its label. -/
def studyYear? (m : MergedModule) : Option Nat := studyYearNumber? m.record.yearOfStudy

/-- The place of a module among those of its year of study goes by its section. -/
def rank (m : MergedModule) : Nat := sectionRank m.record.sectionLabel

/-- A module has a key if its label has a digit; the key is digit, rank and identity. -/
theorem sortKey_eq_ok_iff {k : SortKey} : m.sortKey = .ok k ↔
    m.studyYear? = some k.studyYear ∧ m.rank = k.sectionRank ∧ m.identity = k.identity := by
  obtain ⟨a, r, c, y⟩ := k
  rw [sortKey, studyYear?, identity, Record.identity, SortKey.identity]
  cases studyYearNumber? m.record.yearOfStudy with
  | none => simp
  | some a' => simp [rank]

/-- The label of the year of study has a digit. This is all that a module needs to have a place in a
catalogue. -/
def HasKey (m : MergedModule) : Prop := ∃ k, m.sortKey = .ok k

/-- A module has a key exactly if it has a year of study. -/
theorem hasKey_iff : m.HasKey ↔ m.studyYear?.isSome := by
  rw [Option.isSome_iff_exists]
  constructor
  · rintro ⟨k, hk⟩
    exact ⟨_, (sortKey_eq_ok_iff.mp hk).1⟩
  · rintro ⟨a, ha⟩
    exact ⟨⟨a, m.rank, m.record.moduleCode, m.record.yearOfStudy⟩,
      sortKey_eq_ok_iff.mpr ⟨ha, rfl, rfl⟩⟩

instance (m : MergedModule) : Decidable m.HasKey := decidable_of_iff _ hasKey_iff.symm

/-- The first module stands before the second: both have a key, and the first has the lesser.
Modules of one key stand in no order. -/
def Precedes (m n : MergedModule) : Prop :=
  ∃ j k, m.sortKey = .ok j ∧ n.sortKey = .ok k ∧ compare j k = .lt

/-- Modules of one year of study come by rank and then by identity. -/
theorem precedes_iff : m.Precedes n ↔ ∃ a ∈ m.studyYear?, ∃ b ∈ n.studyYear?,
    a < b ∨ a = b ∧
      (m.rank < n.rank ∨ m.rank = n.rank ∧ compare m.identity n.identity = .lt) := by
  constructor
  · rintro ⟨j, k, hj, hk, hlt⟩
    obtain ⟨hyj, hrj, hij⟩ := sortKey_eq_ok_iff.mp hj
    obtain ⟨hyk, hrk, hik⟩ := sortKey_eq_ok_iff.mp hk
    rw [hrj, hrk, hij, hik]
    exact ⟨_, hyj, _, hyk, SortKey.compare_eq_lt_iff.mp hlt⟩
  · rintro ⟨a, ha, b, hb, hlt⟩
    refine ⟨⟨a, m.rank, m.record.moduleCode, m.record.yearOfStudy⟩,
      ⟨b, n.rank, n.record.moduleCode, n.record.yearOfStudy⟩, ?_, ?_, ?_⟩
    · exact sortKey_eq_ok_iff.mpr ⟨ha, rfl, rfl⟩
    · exact sortKey_eq_ok_iff.mpr ⟨hb, rfl, rfl⟩
    · exact SortKey.compare_eq_lt_iff.mpr hlt

instance (m n : MergedModule) : Decidable (m.Precedes n) := decidable_of_iff _ precedes_iff.symm

/-- A year of study is found wherever the label has a digit, in front or not. -/
theorem hasKey_iff_exists_digit :
    m.HasKey ↔ ∃ c ∈ m.record.yearOfStudy.toList, c.isDigit := by
  rw [hasKey_iff, studyYear?, studyYearNumber?, Option.isSome_map, List.find?_isSome]

/-- The modules have one key. -/
def Ties (m n : MergedModule) : Prop := ∃ k, m.sortKey = .ok k ∧ n.sortKey = .ok k

/-- The label of the year of study is a part of the identity, so the years of study need not be
compared. Two modules of one identity may differ in the rank of their sections. -/
theorem ties_iff : m.Ties n ↔ m.HasKey ∧ m.rank = n.rank ∧ m.identity = n.identity := by
  constructor
  · rintro ⟨k, hm, hn⟩
    obtain ⟨-, hrm, him⟩ := sortKey_eq_ok_iff.mp hm
    obtain ⟨-, hrn, hin⟩ := sortKey_eq_ok_iff.mp hn
    exact ⟨⟨k, hm⟩, hrm.trans hrn.symm, him.trans hin.symm⟩
  · rintro ⟨⟨k, hk⟩, hrank, hidentity⟩
    obtain ⟨hy, hr, hi⟩ := sortKey_eq_ok_iff.mp hk
    have hyear : n.studyYear? = m.studyYear? :=
      congrArg (fun i : Identity => studyYearNumber? i.yearOfStudy) hidentity.symm
    refine ⟨k, hk, sortKey_eq_ok_iff.mpr ⟨hyear.trans hy, ?_, ?_⟩⟩
    · exact hrank.symm.trans hr
    · exact hidentity.symm.trans hi

instance (m n : MergedModule) : Decidable (m.Ties n) := decidable_of_iff _ ties_iff.symm

/-- Of two modules at most one stands before the other. -/
theorem Precedes.asymm (h : m.Precedes n) : ¬ n.Precedes m := by
  rintro ⟨k', j', hk', hj', hlt'⟩
  obtain ⟨j, k, hj, hk, hlt⟩ := h
  obtain rfl := Except.ok.inj (hj.symm.trans hj')
  obtain rfl := Except.ok.inj (hk.symm.trans hk')
  have hjj := TransCmp.lt_trans hlt hlt'
  exact compare_lt_irrefl j hjj

end MergedModule

/-! ### Modules in order

Keys are computed before anything is sorted, and the first module without a digit fails the whole.
After that, the sort is by key alone. It is stable, which is seen only where keys are equal, that
is, where an identity is repeated with one rank; in a catalogue no identity is. -/

/-- Modules are paired with their keys, and stay in order. -/
theorem keyed_of_mapM {modules : List MergedModule} {keyed : List (SortKey × MergedModule)}
    (h : (modules.mapM fun m => return (← m.sortKey, m)) = Except.ok keyed) :
    keyed.map Prod.snd = modules ∧ ∀ p ∈ keyed, p.2.sortKey = .ok p.1 := by
  have hall := mapM_eq_ok_iff.mp h
  clear h
  induction hall with
  | nil => exact ⟨rfl, by simp⟩
  | @cons m p ms ps hp _ ih =>
    obtain ⟨k, hk, hp⟩ := bind_eq_ok_iff.mp hp
    cases hp
    rw [List.map_cons, ih.1]
    exact ⟨rfl, List.forall_mem_cons.mpr ⟨hk, ih.2⟩⟩

/-- If each module has a key, all keys are found. -/
theorem exists_keyed {modules : List MergedModule} (h : ∀ m ∈ modules, m.HasKey) :
    ∃ keyed, (modules.mapM fun m => return (← m.sortKey, m)) =
      (Except.ok keyed : Except PresentationError (List (SortKey × MergedModule))) := by
  refine exists_mapM_eq_ok fun m hm => ?_
  obtain ⟨k, hk⟩ := h m hm
  exact ⟨(k, m), bind_eq_ok_iff.mpr ⟨k, hk, rfl⟩⟩

/-- The modules that are put in order come out by ascending key, and each has one. -/
theorem present_spec {modules presented : List MergedModule} (h : present modules = .ok presented) :
    presented.Perm modules ∧ (∀ m ∈ presented, m.HasKey) ∧
      presented.Pairwise fun m n =>
        ∃ j k, m.sortKey = .ok j ∧ n.sortKey = .ok k ∧ (compare j k).isLE := by
  obtain ⟨keyed, hkeyed, h⟩ := bind_eq_ok_iff.mp h
  cases h
  obtain ⟨hsnd, hkey⟩ := keyed_of_mapM hkeyed
  have hperm := List.mergeSort_perm keyed fun a b => (compare a.1 b.1).isLE
  refine ⟨hsnd ▸ hperm.map Prod.snd, ?_, ?_⟩
  · intro m hm
    obtain ⟨p, hp, rfl⟩ := List.mem_map.mp hm
    exact ⟨p.1, hkey p (hperm.mem_iff.mp hp)⟩
  · refine List.pairwise_map.mpr ((pairwise_mergeSort_key Prod.fst keyed).imp_of_mem ?_)
    intro p q hp hq hpq
    exact ⟨p.1, q.1, hkey p (hperm.mem_iff.mp hp), hkey q (hperm.mem_iff.mp hq), hpq⟩

/-- Modules of distinct identities come out by strictly ascending key. Equal keys would mean equal
identities. -/
theorem present_ascending {modules presented : List MergedModule}
    (h : present modules = .ok presented)
    (hd : (modules.map MergedModule.identity).Nodup) :
    presented.Pairwise MergedModule.Precedes := by
  obtain ⟨hperm, -, hsorted⟩ := present_spec h
  have hd' : presented.Pairwise fun m n => m.identity ≠ n.identity :=
    List.pairwise_map.mp ((hperm.map MergedModule.identity).nodup_iff.mpr hd)
  refine hsorted.imp₂ ?_ hd'
  rintro m n ⟨j, k, hj, hk, hjk⟩ hne
  refine ⟨j, k, hj, hk, compare_lt_of_isLE hjk ?_⟩
  rintro rfl
  rw [(MergedModule.sortKey_eq_ok_iff.mp hj).2.2, (MergedModule.sortKey_eq_ok_iff.mp hk).2.2] at hne
  exact hne rfl

/-- If each module has a key, they can be put in order. -/
theorem exists_present (modules : List MergedModule) :
    (∃ presented, present modules = .ok presented) ↔ ∀ m ∈ modules, m.HasKey := by
  constructor
  · rintro ⟨presented, h⟩ m hm
    obtain ⟨hperm, hkeys, -⟩ := present_spec h
    exact hkeys m (hperm.mem_iff.mpr hm)
  · intro hkeys
    obtain ⟨keyed, hkeyed⟩ := exists_keyed hkeys
    exact ⟨_, bind_eq_ok_iff.mpr ⟨keyed, hkeyed, rfl⟩⟩

/-- Modules of one key keep their order. The sort is stable, and this is the only place where that
can be seen. -/
theorem filter_present {modules presented : List MergedModule} (h : present modules = .ok presented)
    (m : MergedModule) :
    (presented.filter fun n => m.Ties n) = modules.filter fun n => m.Ties n := by
  obtain ⟨keyed, hkeyed, h⟩ := bind_eq_ok_iff.mp h
  cases h
  obtain ⟨hsnd, hkey⟩ := keyed_of_mapM hkeyed
  have hsame : ∀ p ∈ keyed, ∀ q ∈ keyed, m.Ties p.2 → m.Ties q.2 → (compare p.1 q.1).isLE := by
    rintro p hp q hq ⟨j, hj, hpj⟩ ⟨k, hk, hqk⟩
    obtain rfl := Except.ok.inj (hj.symm.trans hk)
    have hpk := Except.ok.inj (hpj.symm.trans (hkey p hp))
    have hqk := Except.ok.inj (hqk.symm.trans (hkey q hq))
    rw [← hpk, ← hqk]
    exact ReflCmp.isLE_rfl
  rw [List.filter_map, filter_mergeSort_key, ← List.filter_map, hsnd]
  intro p hp q hq hmp hmq
  exact hsame p hp q hq (of_decide_eq_true hmp) (of_decide_eq_true hmq)

/-- The order in which modules of distinct identities are given does not show. -/
theorem present_eq_of_perm {modules others presented : List MergedModule}
    (h : present modules = .ok presented) (hd : (modules.map MergedModule.identity).Nodup)
    (hperm : others.Perm modules) : present others = .ok presented := by
  obtain ⟨hpresented, hkeys, -⟩ := present_spec h
  have hothers : ∀ m ∈ others, m.HasKey := fun m hm =>
    hkeys m (hpresented.mem_iff.mpr (hperm.mem_iff.mp hm))
  obtain ⟨presented', h'⟩ := (exists_present others).mpr hothers
  have hd' : (others.map MergedModule.identity).Nodup := (hperm.map _).nodup_iff.mpr hd
  have hsame : presented'.Perm presented := (present_spec h').1.trans (hperm.trans hpresented.symm)
  rw [h', hsame.eq_of_pairwise ?_ (present_ascending h' hd') (present_ascending h hd)]
  intro m n _ _ hmn hnm
  exact absurd hnm hmn.asymm

/-- Modules that stand in order stay as they are. -/
theorem present_eq_self {modules : List MergedModule} (hk : ∀ m ∈ modules, m.HasKey)
    (h : modules.Pairwise MergedModule.Precedes) : present modules = .ok modules := by
  obtain ⟨keyed, hkeyed⟩ := exists_keyed hk
  obtain ⟨hsnd, hkey⟩ := keyed_of_mapM hkeyed
  have hsorted : keyed.Pairwise fun p q => (compare p.1 q.1).isLE := by
    rw [← hsnd, List.pairwise_map] at h
    refine h.imp_of_mem ?_
    rintro p q hp hq ⟨j, k, hj, hk, hlt⟩
    obtain rfl := Except.ok.inj (hj.symm.trans (hkey p hp))
    obtain rfl := Except.ok.inj (hk.symm.trans (hkey q hq))
    rw [hlt]
    rfl
  refine bind_eq_ok_iff.mpr ⟨keyed, hkeyed, ?_⟩
  rw [List.mergeSort_of_pairwise hsorted, hsnd]
  rfl

/-- Modules in presentation order: none is lost or added, keys do not descend, and modules of one
key stand as they were given. These three conditions leave one list only. -/
structure Presents (presented modules : List MergedModule) : Prop where
  perm : presented.Perm modules
  sorted : presented.Pairwise fun m n => m.Precedes n ∨ m.Ties n
  stable : ∀ m : MergedModule,
    (presented.filter fun n => m.Ties n) = modules.filter fun n => m.Ties n

/-- What is put in order is in presentation order. -/
theorem presents_of_present {modules presented : List MergedModule}
    (h : present modules = .ok presented) : Presents presented modules where
  perm := (present_spec h).1
  sorted := by
    obtain ⟨-, -, hsorted⟩ := present_spec h
    apply hsorted.imp
    rintro m n ⟨j, k, hj, hk, hjk⟩
    rcases Ordering.isLE_iff_eq_lt_or_eq_eq.mp hjk with hlt | heq
    · exact .inl ⟨j, k, hj, hk, hlt⟩
    · obtain rfl := LawfulEqOrd.eq_of_compare heq
      exact .inr ⟨j, hj, hk⟩
  stable := filter_present h

/-- Modules can be put in order exactly if each label of a year of study has a digit. They are then
sorted by key, those of one key as they were given. Where no identity is repeated, keys ascend
strictly, and any other order of the same modules gives the same result. -/
theorem present_sorts (modules : List MergedModule) :
    ((∃ presented, present modules = .ok presented) ↔
      ∀ m ∈ modules, ∃ c ∈ m.record.yearOfStudy.toList, c.isDigit) ∧
    ∀ presented, present modules = .ok presented → Presents presented modules ∧
      ((modules.map MergedModule.identity).Nodup →
        presented.Pairwise MergedModule.Precedes ∧
          ∀ others : List MergedModule, others.Perm modules → present others = .ok presented) := by
  refine ⟨?_, fun presented h => ⟨presents_of_present h, fun hd => ?_⟩⟩
  · rw [exists_present]
    exact forall₂_congr fun m _ => MergedModule.hasKey_iff_exists_digit
  · exact ⟨present_ascending h hd, fun others hperm => present_eq_of_perm h hd hperm⟩

/-- A module of a section that comes late, with one year of study that two labels share. -/
theorem present_sorts_reversed :
    let entry (code label sectionLabel : String) : MergedModule :=
      ⟨{ Record.blank code label with sectionLabel }, [], none⟩
    let a := entry "MTH9" "Year 1" "Core Modules"
    let b := entry "MTH1" "Year 1" "Options Range C"
    let c := entry "MTH1" "Year 2P" ""
    let d := entry "MTH1" "Year 2U" ""
    present [d, c, b, a] = .ok [a, b, c, d] ∧ Presents [a, b, c, d] [d, c, b, a] ∧
      ([d, c, b, a].map MergedModule.identity).Nodup ∧
      [a, b, c, d].Pairwise MergedModule.Precedes ∧ present [c, a, d, b] = .ok [a, b, c, d] := by
  intro entry a b c d
  have hself : present [a, b, c, d] = .ok [a, b, c, d] := present_eq_self (by decide) (by decide)
  have h : present [d, c, b, a] = .ok [a, b, c, d] :=
    present_eq_of_perm hself (by decide) (by decide)
  have hd : ([d, c, b, a].map MergedModule.identity).Nodup := by decide
  obtain ⟨hpresents, hdistinct⟩ := (present_sorts [d, c, b, a]).2 [a, b, c, d] h
  obtain ⟨hascending, hothers⟩ := hdistinct hd
  exact ⟨h, hpresents, hd, hascending, hothers [c, a, d, b] (by decide)⟩

end Prospectus
