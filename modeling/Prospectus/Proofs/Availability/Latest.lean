import Prospectus.Proofs.Availability.RulesInForce

/-!
# Which year is the latest

Snapshots are put in order by the text of their labels, and availability is found by calendar year.
Where a label begins with four digits and a slash, the two agree: digits of one length are ordered
as texts as the numbers that they write (`digitsValue_le_of_lt`), so labels in order have calendar
years in order (`AcademicYear.FourDigit.startsBy`). Then the latest year of a walk is the latest
calendar year, in each place where something latest is picked (`reconcile_latest`).
-/

namespace Prospectus

open Std Snapshot

/-! ### Numbers in the order of texts

Texts are compared from the front, and digits are characters in the order of their values. So of
two texts of one length, the first digit in which they differ decides both which text is smaller
and which number is. The length matters: as texts `10` is below `9`. -/

/-- The number that digits write when `n` is written in front of them. Reading from the left keeps
the number so far, which is what the induction on the digits needs. -/
def digitsValue (n : Nat) (ds : List Char) : Nat :=
  ds.foldl (fun n c => 10 * n + (c.toNat - '0'.toNat)) n

/-- One digit moves the number up by a place. -/
theorem digitsValue_cons (n : Nat) (d : Char) (ds : List Char) :
    digitsValue n (d :: ds) = digitsValue (10 * n + (d.toNat - 48)) ds := by
  have hzero : '0'.toNat = 48 := rfl
  show digitsValue (10 * n + (d.toNat - '0'.toNat)) ds = _
  rw [hzero]

/-- Behind a lesser number, as many digits write a lesser number: a digit is at most nine, which
cannot make up for a difference of one before it. -/
theorem digitsValue_lt {ds es : List Char} (hlength : ds.length = es.length)
    (hds : ∀ c ∈ ds, c.isDigit = true) {n k : Nat} (h : n < k) :
    digitsValue n ds < digitsValue k es := by
  induction ds generalizing es n k with
  | nil =>
    obtain rfl : es = [] := List.length_eq_zero_iff.mp hlength.symm
    exact h
  | cons d ds ih =>
    -- the number read so far is less already, and a further place keeps it so whatever the digits
    -- are
    cases es with
    | nil => cases hlength
    | cons e es =>
      obtain ⟨hd, hds⟩ := List.forall_mem_cons.mp hds
      have hnine : d.toNat ≤ 57 := (Char.isDigit_iff_toNat.mp hd).2
      rw [digitsValue_cons, digitsValue_cons]
      apply ih (Nat.succ.inj hlength) hds
      omega

/-- As many digits in front of two texts write numbers in the order of the texts. -/
theorem digitsValue_le_of_lt {ds es us vs : List Char} (hlength : ds.length = es.length)
    (hds : ∀ c ∈ ds, c.isDigit = true) (h : ds ++ us < es ++ vs) (n : Nat) :
    digitsValue n ds ≤ digitsValue n es := by
  induction ds generalizing es n with
  | nil =>
    obtain rfl : es = [] := List.length_eq_zero_iff.mp hlength.symm
    exact Nat.le_refl _
  | cons d ds ih =>
    cases es with
    | nil => cases hlength
    | cons e es =>
      obtain ⟨hd, hds⟩ := List.forall_mem_cons.mp hds
      -- the first places differ, or the rests do behind equal places
      rcases List.cons_lt_cons_iff.mp h with hlt | ⟨rfl, hlt⟩
      · -- from the first place on where they differ, the rest does not matter
        have hzero : 48 ≤ d.toNat := (Char.isDigit_iff_toNat.mp hd).1
        have hless : d.toNat < e.toNat := hlt
        have hhead : 10 * n + (d.toNat - 48) < 10 * n + (e.toNat - 48) := by omega
        rw [digitsValue_cons, digitsValue_cons]
        exact (digitsValue_lt (Nat.succ.inj hlength) hds hhead).le
      · rw [digitsValue_cons, digitsValue_cons]
        exact ih (Nat.succ.inj hlength) hds hlt _

/-! ### Labels of four digits

Four digits and a slash are what a label looks like in practice, `2025/6` or `1999/00`. Blanks
around a label are trimmed before it is read, and what comes behind the slash may end in blanks, so
the slash is what keeps the digits safe from the trimming. -/

/-- Only what stands behind the last character that is not blank can be trimmed from the end. -/
theorem Text.trimEnd_append_cons {c : Char} (hc : isBlank c = false) (before after : List Char) :
    trimEnd (before ++ c :: after) = before ++ c :: trimEnd after := by
  have hstop : (c :: before.reverse).dropWhile isBlank = c :: before.reverse :=
    List.dropWhile_cons_of_neg (by simp [hc])
  have hdrop : (before ++ c :: after).reverse.dropWhile isBlank =
      after.reverse.dropWhile isBlank ++ c :: before.reverse := by
    rw [List.reverse_append, List.reverse_cons, List.append_assoc, List.singleton_append,
      List.dropWhile_append, hstop]
    split
    · next hempty => rw [List.isEmpty_iff.mp hempty, List.nil_append]
    · rfl
  rw [trimEnd, hdrop, trimEnd]
  simp

/-- A digit is never trimmed. -/
theorem Text.isBlank_of_isDigit {c : Char} (h : c.isDigit = true) : isBlank c = false := by
  have hrange : 48 ≤ c.toNat ∧ c.toNat ≤ 57 := Char.isDigit_iff_toNat.mp h
  unfold isBlank
  simp only [Bool.or_eq_false_iff, Bool.and_eq_false_iff, decide_eq_false_iff_not,
    beq_eq_false_iff_ne]
  omega

namespace AcademicYear

/-- A label of four ASCII digits, a slash, and any further text. What stands behind the slash may be
of any length, as in `1999/00` and `2025/6`. -/
def FourDigit (y : AcademicYear) : Prop :=
  ∃ year rest : List Char, y.label.toList = year ++ '/' :: rest ∧ year.length = 4 ∧
    ∀ c ∈ year, c.isDigit = true

/-- Both years have a calendar year, and the first one does not start after the second. They may
start in the same one. -/
def StartsBy (y z : AcademicYear) : Prop :=
  ∃ n k, y.startYear? = some n ∧ z.startYear? = some k ∧ n ≤ k

/-- The calendar year of a label of four digits is the number that they write. -/
theorem startYear?_eq {y : AcademicYear} {year rest : List Char}
    (hlabel : y.label.toList = year ++ '/' :: rest) (hlength : year.length = 4)
    (hyear : ∀ c ∈ year, c.isDigit = true) : y.startYear? = some (digitsValue 0 year : Int) := by
  have hstart : Text.trimStart (year ++ '/' :: rest) = year ++ '/' :: rest := by
    apply Text.trimStart_eq_self_iff.mpr
    cases year with
    | nil => cases hlength
    | cons d year =>
      intro c hc
      cases hc
      exact Text.isBlank_of_isDigit (hyear d List.mem_cons_self)
  have htake : (year ++ '/' :: Text.trimEnd rest).takeWhile Char.isDigit = year := by
    rw [List.takeWhile_append_of_pos hyear]
    simp
  have hnumber : leadingNumber? (Text.trim y.label.toList) = some (digitsValue 0 year) := by
    rw [hlabel, Text.trim, hstart, Text.trimEnd_append_cons (by decide), leadingNumber?, htake]
    cases year with
    | nil => cases hlength
    | cons d year => rfl
  have hlast : digitsValue 0 year ≤ lastCalendarYear := by
    -- four digits write less than four zeros behind a one
    have hless : digitsValue 0 year < digitsValue 1 ['0', '0', '0', '0'] :=
      digitsValue_lt hlength hyear Nat.zero_lt_one
    have hbound : digitsValue 1 ['0', '0', '0', '0'] ≤ lastCalendarYear := by decide
    omega
  rw [startYear?, hnumber, Option.bind_some, if_pos hlast]

/-- Labels of four digits are ordered as their calendar years. Where the digits agree the labels are
ordered by what stands behind the slash, and both start in one year. -/
theorem FourDigit.startsBy {y z : AcademicYear} (hy : y.FourDigit) (hz : z.FourDigit)
    (h : (compare y z).isLE) : y.StartsBy z := by
  obtain ⟨ys, u, hys, hylength, hydigits⟩ := hy
  obtain ⟨zs, v, hzs, hzlength, hzdigits⟩ := hz
  refine ⟨_, _, startYear?_eq hys hylength hydigits, startYear?_eq hzs hzlength hzdigits, ?_⟩
  rcases Ordering.isLE_iff_eq_lt_or_eq_eq.mp h with hlt | heq
  · have htext : y.label.toList < z.label.toList :=
      String.lt_iff.mp (compareOfLessAndEq_eq_lt.mp hlt)
    rw [hys, hzs] at htext
    exact Int.ofNat_le.mpr (digitsValue_le_of_lt (hylength.trans hzlength.symm) hydigits htext 0)
  · obtain rfl : y = z := LawfulEqOrd.eq_of_compare heq
    have hsame : ys = zs := List.append_inj_left (hys.symm.trans hzs) (hylength.trans hzlength.symm)
    rw [hsame]

end AcademicYear

open AcademicYear

/-! ### The last sighting and the last label

A merged module takes its fields from the last sighting, in the order of the walk. The walk
ascends by label, so the snapshot of that sighting has the greatest label of all that have the
module. These lemmas say so, and leave the step from labels to calendar years to `StartsBy`. -/

section

variable {walk : List Snapshot} {i : Identity} {p : Sighting}

/-- The last sighting of an identity is its last record in the snapshot of that year. -/
theorem exists_lastOf?_of_getLast? (hd : Distinct walk)
    (hp : (sightingsOf walk i).getLast? = some p) :
    ∃ s ∈ walk, s.academicYear = p.year ∧ s.lastOf? i = some p.record := by
  obtain ⟨hi, s, hs, hyear, -⟩ := mem_sightingsOf.mp (List.mem_of_getLast? hp)
  refine ⟨s, hs, hyear, ?_⟩
  obtain ⟨before, hbefore⟩ := List.getLast?_eq_some_iff.mp hp
  have hlast : ((sightingsOf walk i).filter fun q => q.year = s.academicYear).getLast? =
      some p := by
    rw [hbefore, List.filter_append]
    simp [hyear]
  rw [filter_sightingsOf hd hs hi, List.getLast?_map] at hlast
  obtain ⟨r, hr, rfl⟩ := Option.map_eq_some_iff.mp hlast
  exact hr

/-- No snapshot that has the identity is later than the last sighting, as sightings stand in the
order of the walk. -/
theorem isLE_of_getLast? (hw : Ascending walk) (hp : (sightingsOf walk i).getLast? = some p)
    {t : Snapshot} (ht : t ∈ walk) (hr : ∃ r ∈ t.modules, r.identity = i) :
    (compare t.academicYear p.year).isLE := by
  obtain ⟨hi, -⟩ := mem_sightingsOf.mp (List.mem_of_getLast? hp)
  obtain ⟨r, hr, hri⟩ := hr
  have hmem : ⟨t.academicYear, r⟩ ∈ sightingsOf walk i :=
    mem_sightingsOf.mpr ⟨hi, t, ht, rfl, hr, hri⟩
  have hsorted : (sightingsOf walk i).Pairwise fun q q' => (compare q.year q'.year).isLE :=
    (sightings_sorted hw).filter _
  obtain ⟨before, hbefore⟩ := List.getLast?_eq_some_iff.mp hp
  rw [hbefore] at hmem hsorted
  rcases List.mem_append.mp hmem with hmem | hmem
  · exact (List.pairwise_append.mp hsorted).2.2 _ hmem p (List.mem_singleton.mpr rfl)
  · obtain rfl := List.mem_singleton.mp hmem
    exact ReflCmp.isLE_rfl

end

/-- With a cycle of one year, every target has the latest captured year as its proxy. -/
theorem CaptureIndex.Indexes.startYear?_congruentProxy? {x : CaptureIndex}
    {years : List AcademicYear} (hx : x.Indexes years) (hsorted : years.Pairwise StartsBy)
    (hdated : Dated years) (target : Int) :
    (x.congruentProxy? target 1).map startYear? = years.getLast?.map startYear? := by
  cases hlast : years.getLast? with
  | none =>
    obtain rfl : years = [] := List.getLast?_eq_none_iff.mp hlast
    rcases hx.isProxy_or_none target (Nat.le_refl 1) with ⟨y, n, -, hy, -⟩ | ⟨hnone, -⟩
    · cases (hx.of_captured? hy).1
    · rw [hnone, Option.map_none]
  | some last =>
    have hmem : last ∈ years := List.mem_of_getLast? hlast
    obtain ⟨k, hk⟩ := Option.isSome_iff_exists.mp (hdated last hmem)
    -- the last start year is the greatest, since start years do not descend along the list
    have hle : ∀ n ∈ startYears years, n ≤ k := by
      rintro n ⟨y, hy, hn⟩
      obtain ⟨before, rfl⟩ := List.getLast?_eq_some_iff.mp hlast
      rcases List.mem_append.mp hy with hy | hy
      · obtain ⟨n', k', hn', hk', hle⟩ :=
          (List.pairwise_append.mp hsorted).2.2 y hy last (List.mem_singleton.mpr rfl)
        cases hn.symm.trans hn'
        cases hk.symm.trans hk'
        exact hle
      · cases List.mem_singleton.mp hy
        cases hn.symm.trans hk
        exact Int.le_refl _
    -- every year is on the place of a cycle of one year, so the proxy is the latest of all
    rcases hx.isProxy_or_none target (Nat.le_refl 1) with ⟨y, n, hfind, hy, hproxy⟩ | ⟨-, hnone⟩
    · have hkn : k ≤ n := hproxy.2 ⟨⟨last, hmem, hk⟩, by simp⟩
      have hnk : n ≤ k := hle n hproxy.1.1
      rw [hfind, Option.map_some, Option.map_some, hk, (hx.of_captured? hy).2,
        Int.le_antisymm hnk hkn]
    · exact absurd (by simp) (hnone k ⟨last, hmem, hk⟩)

/-! ### Outcomes

Four places pick something latest: the list of academic years, which is sorted, the record that a
module gets its fields from, the rules that are shown without a year, and the proxy of a target in
a cycle of one year. `LatestByCalendar` says of each that it is latest by calendar year. -/

/-- What is last by label is latest by calendar year, in each place where something latest is
picked. -/
structure Outcome.LatestByCalendar (o : Outcome) (snapshots : List Snapshot) : Prop where
  dated : Dated o.academicYears
  years_sorted : o.academicYears.Pairwise StartsBy
  /-- All fields of a module but those that accumulate are those of its last record in a snapshot
  that no other snapshot with the module starts after. -/
  record : ∀ m ∈ o.modules, ∃ s ∈ snapshots, ∃ r, s.lastOf? m.identity = some r ∧
    m.record = { r with contentSections := m.record.contentSections } ∧
    ∀ t ∈ snapshots, (∃ r' ∈ t.modules, r'.identity = m.identity) →
      t.academicYear.StartsBy s.academicYear
  /-- The latest captured year of the index, which is the proxy of every target with a cycle of one
  year, starts with the last academic year. -/
  proxy : ∃ x, CaptureIndex.ofYears o.academicYears = .ok x ∧ ∀ target,
    (x.congruentProxy? target 1).map startYear? = o.academicYears.getLast?.map startYear?

/-- An outcome that agrees with an ascending walk has the latest of everything at its end. -/
theorem Outcome.AgreesWith.latestByCalendar {o : Outcome} {walk : List Snapshot}
    (h : o.AgreesWith walk) (hyears : o.academicYears = walk.map academicYear)
    (hw : Ascending walk) (hlabels : ∀ s ∈ walk, s.academicYear.FourDigit) :
    o.LatestByCalendar walk := by
  have hstarts : ∀ s ∈ walk, ∀ t ∈ walk, (compare s.academicYear t.academicYear).isLE →
      s.academicYear.StartsBy t.academicYear :=
    fun s hs t ht => (hlabels s hs).startsBy (hlabels t ht)
  have hdated : Dated o.academicYears := by
    intro y hy
    rw [hyears] at hy
    obtain ⟨s, hs, rfl⟩ := List.mem_map.mp hy
    obtain ⟨n, -, hn, -⟩ := hstarts s hs s hs ReflCmp.isLE_rfl
    exact Option.isSome_iff_exists.mpr ⟨n, hn⟩
  have hsorted : o.academicYears.Pairwise StartsBy := by
    rw [hyears, List.pairwise_map]
    refine List.Pairwise.imp_of_mem ?_ hw
    intro s t hs ht hlt
    exact hstarts s hs t ht (by simp [hlt])
  refine ⟨hdated, hsorted, ?_, ?_⟩
  · -- the record of a module is that of the last sighting, whose label no other one exceeds
    intro m hm
    obtain ⟨p, hp, hrecord⟩ := h.record m hm
    obtain ⟨s, hs, hyear, hlast⟩ := exists_lastOf?_of_getLast? hw.distinct hp
    refine ⟨s, hs, p.record, hlast, hrecord, fun t ht hr => hstarts t ht s hs ?_⟩
    rw [hyear]
    exact isLE_of_getLast? hw hp ht hr
  · -- the look-up for cycle 1 is told by the years of the outcome
    obtain ⟨x, hx, hindex⟩ := CaptureIndex.exists_ofYears hdated
    exact ⟨x, hx, hindex.startYear?_congruentProxy? hsorted hdated⟩

theorem Outcome.LatestByCalendar.of_perm {o : Outcome} {walk snapshots : List Snapshot}
    (hperm : walk.Perm snapshots) (h : o.LatestByCalendar walk) :
    o.LatestByCalendar snapshots := by
  refine ⟨h.dated, h.years_sorted, fun m hm => ?_, h.proxy⟩
  obtain ⟨s, hs, r, hr, hrecord, hlatest⟩ := h.record m hm
  exact ⟨s, hperm.mem_iff.mp hs, r, hr, hrecord, fun t ht => hlatest t (hperm.mem_iff.mpr ht)⟩

/-- Snapshots with labels of four digits, no two of them the same, reconcile, and what the outcome
says of the latest year is said of the latest calendar year. -/
theorem reconcile_latest (e : RulesEquivalence) {snapshots : List Snapshot}
    (hd : Distinct snapshots) (hlabels : ∀ s ∈ snapshots, s.academicYear.FourDigit) :
    ∃ o, reconcile e snapshots = .ok o ∧ o.LatestByCalendar snapshots := by
  have hperm : (walk snapshots).Perm snapshots := walk_perm snapshots
  have hw : Ascending (walk snapshots) := hd.walk_ascending
  have hfour : ∀ s ∈ walk snapshots, s.academicYear.FourDigit :=
    fun s hs => hlabels s (hperm.mem_iff.mp hs)
  refine ⟨_, reconcile_of_distinct e hd, .of_perm hperm ?_⟩
  exact (ofWalk_agreesWith e hw).latestByCalendar rfl hw hfour

/-- Labels whose ends differ in length, two of them of one calendar year. -/
theorem reconcile_latest_uneven :
    let early : Snapshot := ⟨"", ⟨"1999/00"⟩, "", none, [.blank "MTH1" "Year 1"]⟩
    let twin : Snapshot := ⟨"", ⟨"2009/10"⟩, "", none, [.blank "MTH1" "Year 1"]⟩
    let late : Snapshot := ⟨"", ⟨"2009/9 b"⟩, "", none, []⟩
    Distinct [late, early, twin] ∧ (∀ s ∈ [late, early, twin], s.academicYear.FourDigit) ∧
      ∃ o, reconcile .canonical [late, early, twin] = .ok o ∧
        o.LatestByCalendar [late, early, twin] := by
  intro early twin late
  have hd : Distinct [late, early, twin] := by decide
  have hlabels : ∀ s ∈ [late, early, twin], s.academicYear.FourDigit := by
    simp only [List.forall_mem_cons]
    refine ⟨⟨['2', '0', '0', '9'], ['9', ' ', 'b'], by decide, rfl, List.all_eq_true.mp rfl⟩,
      ⟨['1', '9', '9', '9'], ['0', '0'], by decide, rfl, List.all_eq_true.mp rfl⟩,
      ⟨['2', '0', '0', '9'], ['1', '0'], by decide, rfl, List.all_eq_true.mp rfl⟩, nofun⟩
  exact ⟨hd, hlabels, reconcile_latest .canonical hd hlabels⟩

end Prospectus
