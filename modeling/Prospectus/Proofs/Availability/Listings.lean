import Prospectus.Proofs.Availability.Refusals
import Prospectus.Proofs.Catalog.WellFormed

/-!
# Listings by year of study

The digit of a label puts a module in its place in a catalogue, and the same digit says for which
year of study the module is listed. So the listings of one year of study after the other are a
catalogue cut into pieces, and nothing gets lost or stands twice between them
(`Catalog.ListsOnce`). The exception are modules whose label has the digit zero. They are put in
order like all others, in front, but years of study count from one, and a query for year zero is
refused. `listsOnce_build` says so for every catalogue that is built from captures, and
`not_listed_foundation` is one with a module that no query lists.
-/

namespace Prospectus

open AcademicYear Snapshot

/-! ### A sorted list cut into pieces

Nothing here is about modules. A list has a key for each item, and the keys ascend; then the items
of key zero, followed by those of key one and so on, are the list again. The keys may be missing,
in which case the item is in no piece, so a bound on the keys is part of the statement. -/

section

variable {α : Type _} {key : α → Option Nat} {l : List α}

/-- Keys ascend along a list, though several items may share one. -/
def KeysAscend (key : α → Option Nat) (l : List α) : Prop :=
  l.Pairwise fun x y => ∀ j ∈ key x, ∀ k ∈ key y, j ≤ k

theorem filter_key_lt_succ (h : KeysAscend key l) (n : Nat) :
    (l.filter fun x => (key x).any (· < n + 1)) =
      (l.filter fun x => (key x).any (· < n)) ++ l.filter fun x => key x == some n := by
  induction l with
  | nil => rfl
  | cons x l ih =>
    -- a key is less than `n + 1` if it is less than `n` or equal to it; in the list the former
    -- come first
    obtain ⟨hx, hl⟩ := List.pairwise_cons.mp h
    have ih := ih hl
    cases hkey : key x with
    | none => simpa [List.filter_cons, hkey] using ih
    | some k =>
      rcases Nat.lt_trichotomy k n with hlt | rfl | hgt
      · have hle : k ≤ n := hlt.le
        have hne : k ≠ n := hlt.ne
        simpa [List.filter_cons, hkey, hlt, hle, hne, Nat.lt_add_one_iff] using ih
      · -- nothing after `x` has a lesser key
        have hnone : (l.filter fun y => (key y).any (· < k)) = [] := by
          refine List.filter_eq_nil_iff.mpr fun y hy hany => ?_
          obtain ⟨j, hj, hjk⟩ := (Option.any_eq_true _ _).mp hany
          have hkj : k ≤ j := hx y hy k hkey j hj
          have hjk : j < k := by simpa using hjk
          omega
        simpa [List.filter_cons, hkey, hnone, Nat.lt_add_one_iff] using ih
      · -- a greater key is on neither side
        have hnle : ¬ k ≤ n := hgt.not_ge
        have hnlt : ¬ k < n := hgt.not_gt
        have hne : k ≠ n := hgt.ne'
        simpa [List.filter_cons, hkey, hnle, hnlt, hne, Nat.lt_add_one_iff] using ih

/-- The items of one key after those of another are the list again. The induction is on the number
of keys; one more key adds the items behind those that are there already. -/
theorem flatMap_filter_key (h : KeysAscend key l) (n : Nat) :
    ((List.range n).flatMap fun k => l.filter fun x => key x == some k) =
      l.filter fun x => (key x).any (· < n) := by
  induction n with
  | zero => simp
  | succ n ih =>
    rw [List.range_succ, List.flatMap_append, ih, filter_key_lt_succ h, List.flatMap_singleton]

end

/-! ### Digits

A key is a digit, hence below ten. In a catalogue in order the keys ascend, because the digit is
what modules are compared by first. -/

/-- The year of study is a single digit of the label. -/
theorem studyYearNumber?_lt {label : String} {n : Nat} (h : studyYearNumber? label = some n) :
    n < 10 := by
  obtain ⟨c, hc, rfl⟩ := Option.map_eq_some_iff.mp h
  have hdigit : c.isDigit = true := List.find?_some hc
  rw [Char.isDigit_iff_toNat] at hdigit
  have h0 : '0'.toNat = 48 := rfl
  have h9 : '9'.toNat = 57 := rfl
  omega

/-- The order of a catalogue puts years of study before everything else. -/
theorem Catalog.InOrder.keysAscend {c : Catalog} (h : c.InOrder) :
    KeysAscend MergedModule.studyYear? c.modules := by
  refine h.2.imp fun {m n} hmn => ?_
  obtain ⟨a, ha, b, hb, hab⟩ := MergedModule.precedes_iff.mp hmn
  intro j hj k hk
  obtain rfl : a = j := Option.some.inj (ha.symm.trans hj)
  obtain rfl : b = k := Option.some.inj (hb.symm.trans hk)
  omega

/-- The modules of the digits in order are the modules of the catalogue. -/
theorem Catalog.InOrder.flatMap_filter_studyYear? {c : Catalog} (h : c.InOrder) {n : Nat}
    (hn : 10 ≤ n) :
    ((List.range n).flatMap fun k => c.modules.filter fun m => m.studyYear? == some k) =
      c.modules := by
  rw [flatMap_filter_key h.keysAscend, List.filter_eq_self]
  intro m hm
  obtain ⟨k, hk⟩ := Option.isSome_iff_exists.mp (MergedModule.hasKey_iff.mp (h.1 m hm))
  have hlt : k < 10 := studyYearNumber?_lt hk
  rw [hk]
  exact decide_eq_true (by omega)

/-! ### Which modules a query lists

A query takes the modules of its year of study and decides about each. It may refuse, but if it
does not, it lists these modules and no others, in the order of the catalogue. -/

namespace Catalog

variable {c : Catalog} {q : Query} {entry : Int} {cycle n : Nat} {m : MergedModule}

/-- What a query lists are the modules of its year of study. -/
theorem merged_of_modulesForEntry {es : List EntryModule} (h : c.modulesForEntry q = .ok es) :
    es.map EntryModule.merged = c.modules.filter fun m => m.studyYear? == some q.studyYear := by
  obtain ⟨x, -, h⟩ := bind_eq_ok_iff.mp h
  have heach : List.Forall₂ (fun m e => m = e.merged)
      (c.modules.filter fun m => m.studyYear? == some q.studyYear) es := by
    refine (mapM_eq_ok_iff.mp h).imp fun m e he => ?_
    obtain ⟨d, -, he⟩ := bind_eq_ok_iff.mp he
    cases he
    rfl
  have heq := List.forall₂_map_right_iff.mpr heach
  rw [List.forall₂_eq_eq_eq] at heq
  exact heq.symm

/-- A module is listed for a year of study: the query for it has an answer, and the module is in it.
-/
def Lists (c : Catalog) (entry : Int) (cycle n : Nat) (m : MergedModule) : Prop :=
  ∃ es, c.modulesForEntry ⟨entry, n, cycle⟩ = .ok es ∧ m ∈ es.map EntryModule.merged

/-- A module is listed for the year of study that its own label has. -/
theorem Lists.studyYear?_eq (h : c.Lists entry cycle n m) : m.studyYear? = some n := by
  obtain ⟨es, hes, hm⟩ := h
  rw [merged_of_modulesForEntry hes, List.mem_filter] at hm
  exact eq_of_beq hm.2

/-- No module of the catalogue has its year of study beyond the last calendar year. -/
def InRange (c : Catalog) (entry : Int) : Prop :=
  ∀ m ∈ c.modules, ∀ n ∈ m.studyYear?, targetYear entry n ≠ .error (.yearOutOfRange entry n)

instance (c : Catalog) (entry : Int) : Decidable (c.InRange entry) :=
  inferInstanceAs (Decidable (∀ m ∈ c.modules, _))

/-- How the modules of a catalogue are spread over the years of study. The listings are of one entry
and one cycle; which modules they have depends on neither. -/
structure ListsOnce (c : Catalog) (entry : Int) (cycle : Nat) : Prop where
  nodup : c.modules.Nodup
  /-- A module is listed for exactly one year of study if its digit is not zero. -/
  once : ∀ m ∈ c.modules, m.studyYear? ≠ some 0 → ∃! n, c.Lists entry cycle n m
  /-- Every year of study has a listing, and one after the other they are the modules of the
  catalogue in order, after those of digit zero. -/
  inOrder : ∃ listing : Nat → List EntryModule,
    (∀ n, 1 ≤ n → c.modulesForEntry ⟨entry, n, cycle⟩ = .ok (listing n)) ∧
    ∀ last, 9 ≤ last → c.modules = (c.modules.filter fun m => m.studyYear? == some 0) ++
      ((List.range' 1 last).flatMap listing).map EntryModule.merged
  /-- A module of digit zero is not listed, as its year of study is refused. -/
  refused : ∀ m ∈ c.modules, m.studyYear? = some 0 → (∀ n, ¬ c.Lists entry cycle n m) ∧
    c.modulesForEntry ⟨entry, 0, cycle⟩ = .error .zeroStudyYear

/-! ### Queries of a catalogue in order

Digit zero is the exception throughout. A label such as `Year 0` gives a module its place in the
catalogue like any other label, but a query for that year of study is refused before any module is
looked at, for every length of the cycle. -/

/-- A query for year of study zero is refused if it comes to a module. -/
theorem modulesForEntry_zero (hyears : Dated c.academicYears) (hc : 1 ≤ cycle) (hm : m ∈ c.modules)
    (hzero : m.studyYear? = some 0) :
    c.modulesForEntry ⟨entry, 0, cycle⟩ = .error .zeroStudyYear := by
  have hcycle : cycle ≠ 0 := by omega
  apply modulesForEntry_of_refusal hyears ⟨m, hm, hzero⟩
  rw [Query.refusal?, if_neg hcycle, if_pos rfl]

/-- Every other query has an answer, as far as the targets are in range. -/
theorem exists_modulesForEntry_of_inRange (hyears : Dated c.academicYears)
    (hruns : ∀ m ∈ c.modules, Dated m.availableYears) (hc : 1 ≤ cycle) (hrange : c.InRange entry)
    (hn : 1 ≤ n) : ∃ es, c.modulesForEntry ⟨entry, n, cycle⟩ = .ok es := by
  -- the only refusal that is left is a target out of range, and the range excludes it
  cases hes : c.modulesForEntry ⟨entry, n, cycle⟩ with
  | ok es => exact ⟨es, rfl⟩
  | error e =>
    have hcycle : cycle ≠ 0 := by omega
    have hstudy : n ≠ 0 := by omega
    obtain ⟨⟨m, hm, hdigit⟩, hrefusal⟩ := (modulesForEntry_eq_error_iff hyears hruns).mp hes
    rw [Query.refusal?, if_neg hcycle, if_neg hstudy] at hrefusal
    cases htarget : targetYear entry n with
    | ok target =>
      rw [htarget] at hrefusal
      cases hrefusal
    | error e' =>
      obtain rfl := Query.targetYear_eq_error (q := ⟨entry, n, cycle⟩) hstudy htarget
      exact absurd htarget (hrange m hm n hdigit)

/-- Modules in order are listed in order, each once. The pieces of the catalogue are the listings,
as a listing has the modules of its year of study and no others. -/
theorem ListsOnce.of_inOrder (hd : c.DistinctIdentities) (ho : c.InOrder)
    (hyears : Dated c.academicYears) (hruns : ∀ m ∈ c.modules, Dated m.availableYears)
    (hc : 1 ≤ cycle) (hrange : c.InRange entry) : c.ListsOnce entry cycle := by
  -- a listing for every study year, so that the statement can speak of all of them at once
  have hlisting : ∀ n, ∃ es, 1 ≤ n → c.modulesForEntry ⟨entry, n, cycle⟩ = .ok es := by
    intro n
    by_cases hn : 1 ≤ n
    · obtain ⟨es, hes⟩ := exists_modulesForEntry_of_inRange hyears hruns hc hrange hn
      exact ⟨es, fun _ => hes⟩
    · exact ⟨[], fun h => absurd h hn⟩
  choose listing hlisting using hlisting
  refine ⟨List.Nodup.of_map _ hd, ?_, ⟨listing, hlisting, ?_⟩, ?_⟩
  · -- a module is listed for the digit of its label and for no other
    intro m hm hzero
    obtain ⟨n, hn⟩ := Option.isSome_iff_exists.mp (MergedModule.hasKey_iff.mp (ho.1 m hm))
    have hpos : 1 ≤ n := by
      by_contra hnot
      obtain rfl : n = 0 := by omega
      exact hzero hn
    refine ⟨n, ⟨listing n, hlisting n hpos, ?_⟩, fun k hk => ?_⟩
    · rw [merged_of_modulesForEntry (hlisting n hpos), List.mem_filter]
      exact ⟨hm, beq_iff_eq.mpr hn⟩
    · exact Option.some.inj (hk.studyYear?_eq.symm.trans hn)
  · -- the listings one after the other are the catalogue cut by study year
    intro last hlast
    have hpieces := ho.flatMap_filter_studyYear? (n := last + 1) (by omega)
    rw [List.range_eq_range', List.range'_succ, List.flatMap_cons] at hpieces
    rw [List.map_flatMap]
    refine hpieces.symm.trans (congrArg _ (List.flatMap_congr fun n hn => ?_))
    have hpos : 1 ≤ n := (List.mem_range'_1.mp hn).1
    exact (merged_of_modulesForEntry (hlisting n hpos)).symm
  · -- a module of study year 0 would be listed for 0 only, which is refused
    intro m hm hzero
    refine ⟨?_, modulesForEntry_zero hyears hc hm hzero⟩
    intro n hlists
    obtain rfl : 0 = n := Option.some.inj (hzero.symm.trans hlists.studyYear?_eq)
    obtain ⟨es, hes, -⟩ := hlists
    rw [modulesForEntry_zero hyears hc hm hzero] at hes
    cases hes

end Catalog

/-- The modules of a catalogue that is built from captures are spread over the years of study: each
is listed once, unless its digit is zero, and the listings in order are the catalogue. -/
theorem listsOnce_build {e : RulesEquivalence} {snapshots : List Snapshot} {o : Outcome}
    {course school : String} {c : Catalog} (hr : reconcile e snapshots = .ok o)
    (hb : Catalog.build course school o = .ok c) (hdated : Dated o.academicYears) {cycle : Nat}
    (hc : 1 ≤ cycle) {entry : Int} (hrange : c.InRange entry) : c.ListsOnce entry cycle := by
  obtain ⟨hyears, -, hidentities, hcaptured, horder⟩ := Catalog.ordered_build hr hb
  have hdated : Dated c.academicYears := hyears ▸ hdated
  have hruns : ∀ m ∈ c.modules, Dated m.availableYears :=
    fun m hm y hy => hdated y ((hcaptured m hm).2.2 y hy)
  exact .of_inOrder hidentities horder hdated hruns hc hrange

/-- A foundation year, a first year, and two labels of the second. -/
def foundationCaptures : List Snapshot :=
  [⟨"", ⟨"2025/6"⟩, "", none, [.blank "MTH2" "Year 2U", .blank "MTH0" "Year 0"]⟩,
    ⟨"", ⟨"2026/7"⟩, "", none, [.blank "MTH2" "Year 2P", .blank "MTH1" "Year 1"]⟩]

/-- The catalogue of these captures. The foundation year stands in front. -/
def foundationCatalog : Catalog :=
  ⟨"", "", [⟨"2025/6"⟩, ⟨"2026/7"⟩], [⟨.blank "MTH0" "Year 0", [⟨"2025/6"⟩], none⟩,
    ⟨.blank "MTH1" "Year 1", [⟨"2026/7"⟩], none⟩, ⟨.blank "MTH2" "Year 2P", [⟨"2026/7"⟩], none⟩,
    ⟨.blank "MTH2" "Year 2U", [⟨"2025/6"⟩], none⟩]⟩

/-- The catalogue is indeed what the captures are built into. -/
theorem build_foundationCaptures : ∃ o, reconcile .canonical foundationCaptures = .ok o ∧
    Catalog.build "" "" o = .ok foundationCatalog := by
  have hmodules :
      (Outcome.ofWalk .canonical foundationCaptures).modules = foundationCatalog.modules := by
    decide +kernel
  exact Catalog.build_of_ascending (by decide) rfl hmodules (by decide) (by decide)

/-- Both labels of the second year are in one listing, in the order of the catalogue. -/
theorem listsOnce_build_foundation :
    foundationCatalog.InRange 2025 ∧ foundationCatalog.ListsOnce 2025 2 := by
  have hrange : foundationCatalog.InRange 2025 := by decide
  obtain ⟨o, hr, hb⟩ := build_foundationCaptures
  have hdated : Dated o.academicYears := by
    rw [← (Catalog.ordered_build hr hb).1]
    decide
  exact ⟨hrange, listsOnce_build hr hb hdated (by decide) hrange⟩

/-- The foundation year has a place in the catalogue, and no query lists it. -/
theorem not_listed_foundation :
    (∃ o, reconcile .canonical foundationCaptures = .ok o ∧
      Catalog.build "" "" o = .ok foundationCatalog) ∧
    Dated foundationCatalog.academicYears ∧ foundationCatalog.InRange 2025 ∧
      ∃ m ∈ foundationCatalog.modules, ∀ n, ¬ foundationCatalog.Lists 2025 2 n m := by
  have hrange : foundationCatalog.InRange 2025 := by decide
  have hdated : Dated foundationCatalog.academicYears := by decide
  obtain ⟨o, hr, hb⟩ := build_foundationCaptures
  obtain ⟨-, -, hidentities, hcaptured, horder⟩ := Catalog.ordered_build hr hb
  have hruns : ∀ m ∈ foundationCatalog.modules, Dated m.availableYears :=
    fun m hm y hy => hdated y ((hcaptured m hm).2.2 y hy)
  have honce : foundationCatalog.ListsOnce 2025 2 :=
    .of_inOrder hidentities horder hdated hruns (by decide) hrange
  let m : MergedModule := ⟨.blank "MTH0" "Year 0", [⟨"2025/6"⟩], none⟩
  have hm : m ∈ foundationCatalog.modules := List.mem_cons_self
  exact ⟨⟨o, hr, hb⟩, hdated, hrange, m, hm, (honce.refused m hm (by decide)).1⟩

end Prospectus
