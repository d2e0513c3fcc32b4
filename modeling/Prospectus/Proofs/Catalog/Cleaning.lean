import Prospectus.Proofs.Catalog.WellFormed
import Prospectus.Scrub.Document

/-!
# Catalogues after cleaning

Scrubbing a catalogue leaves identities and years alone, but it rewrites the two texts that the
other conditions of a well-formed catalogue are computed from. Rules that differed only in what is
removed become the same and are still kept by year, and a section that gets another rank does not
move its module. `wellFormed_cleaned_iff` says which well-formed catalogues are well-formed after
any number of scrubbers, and `namedCatalog` is a built catalogue that is not after one.
-/

namespace Prospectus

open Std Scrub

/-! ### Several scrubbers, one after the other

A catalogue may be cleaned with one list of names today and with another one next year, so nothing
is said of a single scrubber that is not said of a list of them. A module is cleaned field by
field, and the only fields that a catalogue is ordered and compared by are its identity, which no
scrubber touches, and the rank of its section. -/

/-- A text after several scrubbers. -/
def cleanedText (ss : List Scrubber) (text : String) : String :=
  ss.foldl (fun text s => s.scrub text) text

/-- The rules of a year after several scrubbers. -/
def cleanedRules (ss : List Scrubber) (v : Json.Value) : Json.Value :=
  ss.foldl (fun v s => s.scrubValue v) v

/-- The rank of the section of a module after several scrubbers. -/
def cleanedRank (ss : List Scrubber) (m : MergedModule) : Nat :=
  sectionRank (cleanedText ss m.record.sectionLabel)

/-- A module after several scrubbers. -/
def MergedModule.cleaned (ss : List Scrubber) (m : MergedModule) : MergedModule :=
  ss.foldl (fun m s => s.scrubMerged m) m

/-- A catalogue after several scrubbers. -/
def Catalog.cleaned (ss : List Scrubber) (c : Catalog) : Catalog :=
  ss.foldl (fun c s => s.scrubCatalog c) c

namespace MergedModule

variable (ss : List Scrubber) (m : MergedModule)

@[simp] theorem identity_cleaned : (m.cleaned ss).identity = m.identity := by
  induction ss generalizing m with
  | nil => rfl
  | cons s ss ih => exact ih (s.scrubMerged m)

@[simp] theorem availableYears_cleaned : (m.cleaned ss).availableYears = m.availableYears := by
  induction ss generalizing m with
  | nil => rfl
  | cons s ss ih => exact ih (s.scrubMerged m)

@[simp] theorem rank_cleaned : (m.cleaned ss).rank = cleanedRank ss m := by
  induction ss generalizing m with
  | nil => rfl
  | cons s ss ih => exact ih (s.scrubMerged m)

@[simp] theorem studyYear?_cleaned : (m.cleaned ss).studyYear? = m.studyYear? := by
  show studyYearNumber? (m.cleaned ss).identity.yearOfStudy = _
  rw [identity_cleaned]
  rfl

/-- What is asked of the cleaned rules is asked of the rules, with the cleaning put first. -/
theorem rulesDiffer_scrubMerged (f : Json.Value → Json.Value) (s : Scrubber) (m : MergedModule) :
    (s.scrubMerged m).RulesDiffer f ↔ m.RulesDiffer fun v => f (s.scrubValue v) := by
  simp [RulesDiffer, Scrubber.scrubMerged]

@[simp] theorem rulesDiffer_cleaned :
    (m.cleaned ss).RulesDiffer id ↔ m.RulesDiffer (cleanedRules ss) := by
  induction ss generalizing m with
  | nil => rfl
  | cons s ss ih => exact (ih (s.scrubMerged m)).trans (rulesDiffer_scrubMerged _ s m)

/-- A module that stood before another still does, unless both are of one year of study and their
cleaned sections rank the other way. Years of study are not scrubbed, so between different ones
nothing changes. -/
theorem Precedes.cleaned_iff {ss : List Scrubber} {m n : MergedModule} (h : m.Precedes n) :
    (m.cleaned ss).Precedes (n.cleaned ss) ↔
      (m.studyYear? = n.studyYear? → cleanedRank ss m < cleanedRank ss n ∨
        cleanedRank ss m = cleanedRank ss n ∧ compare m.identity n.identity = .lt) := by
  obtain ⟨a, ha, b, hb, hab⟩ := precedes_iff.mp h
  rw [Option.mem_def] at ha hb
  rw [precedes_iff]
  simp only [studyYear?_cleaned, rank_cleaned, identity_cleaned, ha, hb, Option.mem_def,
    Option.some.injEq]
  constructor
  · -- whichever way the two are told apart afterwards, one year of study leaves rank and identity
    rintro ⟨_, rfl, _, rfl, hlt | ⟨-, hrank⟩⟩ heq
    · -- one year of study cannot be before itself
      omega
    · exact hrank
  · -- the years of study are those of before, so only equal ones need the condition
    intro hrank
    refine ⟨a, rfl, b, rfl, ?_⟩
    rcases hab with hlt | ⟨heq, -⟩
    · exact .inl hlt
    · exact .inr ⟨heq, hrank heq⟩

end MergedModule

namespace Catalog

variable (ss : List Scrubber) (c : Catalog)

@[simp] theorem modules_cleaned :
    (c.cleaned ss).modules = c.modules.map (MergedModule.cleaned ss) := by
  induction ss generalizing c with
  | nil => exact (List.map_id c.modules).symm
  | cons s ss ih =>
    show (Catalog.cleaned ss (s.scrubCatalog c)).modules = _
    rw [ih, Scrubber.scrubCatalog, List.map_map]
    rfl

@[simp] theorem academicYears_cleaned : (c.cleaned ss).academicYears = c.academicYears := by
  induction ss generalizing c with
  | nil => rfl
  | cons s ss ih => exact ih (s.scrubCatalog c)

/-! ### What is kept

Identities and years are no texts that a scrubber looks at. -/

variable {c}

theorem DistinctIdentities.cleaned (h : c.DistinctIdentities) :
    (c.cleaned ss).DistinctIdentities := by
  have hsame : MergedModule.identity ∘ MergedModule.cleaned ss = MergedModule.identity :=
    funext (MergedModule.identity_cleaned ss)
  rwa [DistinctIdentities, modules_cleaned, List.map_map, hsame]

theorem YearsCaptured.cleaned (h : c.YearsCaptured) : (c.cleaned ss).YearsCaptured := by
  intro m' hm'
  rw [modules_cleaned] at hm'
  obtain ⟨m, hm, rfl⟩ := List.mem_map.mp hm'
  simpa using h m hm

/-! ### What may be lost

The other two conditions are computed from texts. Whether rules differ has to be asked again of the
cleaned values; whether the order is kept comes down to the ranks of the cleaned sections, among
modules of one year of study. Neither can be said of a scrubber alone: it depends on what the
catalogue has in it. -/

/-- Of two modules of one year of study, the cleaned section of the first has the lesser rank, or
both have one rank and the first has the lesser identity. Modules of different years of study are in
order whatever their sections are. -/
def RanksKept (ss : List Scrubber) (c : Catalog) : Prop :=
  c.modules.Pairwise fun m n => m.studyYear? = n.studyYear? →
    cleanedRank ss m < cleanedRank ss n ∨
      cleanedRank ss m = cleanedRank ss n ∧ compare m.identity n.identity = .lt

instance (ss : List Scrubber) (c : Catalog) : Decidable (c.RanksKept ss) :=
  inferInstanceAs (Decidable (List.Pairwise _ _))

/-- Among well-ordered modules only ranks can change places. -/
theorem inOrder_cleaned_iff (h : c.InOrder) : (c.cleaned ss).InOrder ↔ c.RanksKept ss := by
  have hkeys : ∀ m ∈ (c.cleaned ss).modules, m.HasKey := by
    intro m' hm'
    rw [modules_cleaned] at hm'
    obtain ⟨m, hm, rfl⟩ := List.mem_map.mp hm'
    rw [MergedModule.hasKey_iff, MergedModule.studyYear?_cleaned]
    exact MergedModule.hasKey_iff.mp (h.1 m hm)
  rw [InOrder, and_iff_right hkeys, modules_cleaned, List.pairwise_map, RanksKept]
  constructor
  · intro hp
    exact h.2.imp₂ (fun _ _ hmn hc => hmn.cleaned_iff.mp hc) hp
  · intro hp
    exact h.2.imp₂ (fun _ _ hmn hr => hmn.cleaned_iff.mpr hr) hp

/-- A well-formed catalogue is well-formed after cleaning iff the rules that it keeps by year still
differ and the ranks of the sections still go with the order of the modules. -/
theorem wellFormed_cleaned_iff (h : c.WellFormed) :
    (c.cleaned ss).WellFormed ↔
      (∀ m ∈ c.modules, m.RulesDiffer (cleanedRules ss)) ∧ c.RanksKept ss := by
  have hrules : (∀ m ∈ (c.cleaned ss).modules, m.RulesDiffer id) ↔
      ∀ m ∈ c.modules, m.RulesDiffer (cleanedRules ss) := by
    simp
  rw [← hrules, ← inOrder_cleaned_iff ss h.order]
  constructor
  · intro hw
    exact ⟨hw.rules, hw.order⟩
  · rintro ⟨hr, ho⟩
    exact ⟨h.identities.cleaned ss, h.years.cleaned ss, hr, ho⟩

end Catalog

/-! ### From captures through any number of scrubbers

Between being built and being cleaned a catalogue is stored and read, which is the identity here
(`Catalog.decodeText_documentText_iff`). What is left is one statement about the catalogue that
captures make, and one about what scrubbers make of it. -/

/-- Built catalogues are well-formed. Cleaning a well-formed one keeps identities and years, and
all the rest exactly if the rules that it keeps by year still differ and the sections still rank in
the order of the modules. -/
theorem wellFormed_built_and_cleaned (c : Catalog) (ss : List Scrubber) :
    (∀ snapshots o course school, reconcile .canonical snapshots = .ok o →
      Catalog.build course school o = .ok c → c.WellFormed) ∧
    (c.WellFormed → (c.cleaned ss).DistinctIdentities ∧ (c.cleaned ss).YearsCaptured ∧
      ((c.cleaned ss).WellFormed ↔
        (∀ m ∈ c.modules, m.RulesDiffer (cleanedRules ss)) ∧ c.RanksKept ss)) :=
  ⟨fun _ _ _ _ hr hb => Catalog.wellFormed_build hr hb, fun h =>
    ⟨h.identities.cleaned ss, h.years.cleaned ss, Catalog.wellFormed_cleaned_iff ss h⟩⟩

/-- Two captures in which a name stands in front of a section and in one year's rules. -/
def namedCaptures : List Snapshot :=
  [⟨"", ⟨"2025/6"⟩, "", none, [{ Record.blank "MTH2" "Year 1" with moduleRules := .text "ask" }]⟩,
    ⟨"", ⟨"2026/7"⟩, "", none,
      [{ Record.blank "MTH1" "Year 1" with sectionLabel := "Options Range A" },
        { Record.blank "MTH2" "Year 1" with
          sectionLabel := "Ann Core Modules", moduleRules := .text "ask Ann" }]⟩]

/-- The catalogue of the captures, in which the section with the name has no rank. -/
def namedCatalog : Catalog :=
  ⟨"", "", [⟨"2025/6"⟩, ⟨"2026/7"⟩],
    [⟨{ Record.blank "MTH1" "Year 1" with sectionLabel := "Options Range A" }, [⟨"2026/7"⟩], none⟩,
      ⟨{ Record.blank "MTH2" "Year 1" with
          sectionLabel := "Ann Core Modules", moduleRules := .text "ask Ann" },
        [⟨"2025/6"⟩, ⟨"2026/7"⟩],
        some (.ofList [(⟨"2025/6"⟩, .text "ask"), (⟨"2026/7"⟩, .text "ask Ann")])⟩]⟩

/-- The catalogue is indeed what the captures are built into. -/
theorem build_namedCaptures : ∃ o, reconcile .canonical namedCaptures = .ok o ∧
    Catalog.build "" "" o = .ok namedCatalog := by
  have hmodules : (Outcome.ofWalk .canonical namedCaptures).modules = namedCatalog.modules := by
    decide +kernel
  exact Catalog.build_of_ascending (by decide) rfl hmodules (by decide +kernel) (by decide +kernel)

/-- A scrubber without the name keeps the catalogue well-formed. -/
theorem wellFormed_cleaned_builtin :
    namedCatalog.WellFormed ∧ (namedCatalog.cleaned [.builtin]).WellFormed := by
  -- the catalogue is well-formed because it was built, not by looking at it
  obtain ⟨o, hr, hb⟩ := build_namedCaptures
  obtain ⟨hbuilt, hcleaned⟩ := wellFormed_built_and_cleaned namedCatalog [.builtin]
  have h : namedCatalog.WellFormed := hbuilt _ _ _ _ hr hb
  refine ⟨h, (hcleaned h).2.2.mpr ⟨?_, ?_⟩⟩
  · decide +kernel
  · decide +kernel

/-- A scrubber of the name makes the rules of all years the same, and leaves a core module behind an
option. -/
theorem not_wellFormed_cleaned_named :
    let s : Scrubber := ⟨["Ann".toList], []⟩
    (∃ o, reconcile .canonical namedCaptures = .ok o ∧
      Catalog.build "" "" o = .ok namedCatalog) ∧
    namedCatalog.WellFormed ∧ ¬ (∀ m ∈ (s.scrubCatalog namedCatalog).modules, m.RulesDiffer id) ∧
      ¬ (s.scrubCatalog namedCatalog).InOrder ∧ ¬ (s.scrubCatalog namedCatalog).WellFormed := by
  intro s
  obtain ⟨o, hr, hb⟩ := build_namedCaptures
  have h : namedCatalog.WellFormed := Catalog.wellFormed_build hr hb
  have hrules : ¬ ∀ m ∈ (s.scrubCatalog namedCatalog).modules, m.RulesDiffer id := by
    decide +kernel
  have horder : ¬ (namedCatalog.cleaned [s]).InOrder := by
    rw [Catalog.inOrder_cleaned_iff [s] h.order]
    decide +kernel
  exact ⟨⟨o, hr, hb⟩, h, hrules, horder, fun hw => hrules hw.rules⟩

end Prospectus
