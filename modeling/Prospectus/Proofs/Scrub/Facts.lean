import Prospectus.Proofs.Scrub.Row

/-!
# Rows of facts

Cleaning leaves exactly those rows as they are that hold nothing but facts (`cleanRow_eq_self_iff`):
cut at the separator they give one empty part, or only parts of which each `StatesFact`. So the row
of a scrubbed record, which neither cleaning nor scrubbing changes, holds only facts and nothing
that could be scrubbed (`settled_tableInfo`).

Cleaning once need not give such a row. If the blank character behind a bar is trimmed off, a part
may end in ` |`; then a separator of the cleaned row begins within that part, and a second cleaning
cuts the row into other parts (`not_cleanTableInfo_twice_tabbed`). Where bars are set off by spaces
(`BarsSpaced`) the row is cut into the same parts again, and cleaning twice is cleaning once.
-/

namespace Prospectus

namespace Text

/-! ### What is trimmed off

A text is what trimming leaves, with blank characters before and after it. -/

theorem exists_append_trimStart (cs : List Char) :
    ∃ blanks, cs = blanks ++ trimStart cs ∧ ∀ c ∈ blanks, isBlank c = true :=
  ⟨cs.takeWhile isBlank, List.takeWhile_append_dropWhile.symm, fun _ => List.mem_takeWhile_imp⟩

theorem exists_trimEnd_append (cs : List Char) :
    ∃ blanks, cs = trimEnd cs ++ blanks ∧ ∀ c ∈ blanks, isBlank c = true := by
  obtain ⟨blanks, hcs, hblanks⟩ := exists_append_trimStart cs.reverse
  refine ⟨blanks.reverse, ?_, fun c hc => hblanks c (List.mem_reverse.mp hc)⟩
  rw [← List.reverse_inj, hcs, List.reverse_append, List.reverse_reverse, trimEnd,
    List.reverse_reverse]
  rfl

theorem trim_isInfix (cs : List Char) : trim cs <:+: cs :=
  (trimEnd_isPrefix _).isInfix.trans (trimStart_isSuffix cs).isInfix

theorem trimStart_append {blanks : List Char} (h : ∀ c ∈ blanks, isBlank c = true)
    (cs : List Char) : trimStart (blanks ++ cs) = trimStart cs := by
  rw [trimStart, List.dropWhile_append_of_pos h, trimStart]

end Text

namespace Scrub

open Text

/-! ### The list of students

Where the list of students begins is decided by a short scan of the part: blank characters and at
most one colon are passed over, and then `Code:` or six digits have to follow. `BeginsListing` says
the same without a scan, as the existence of a cut. -/

/-- Blank characters, and a colon among them at most. -/
structure IsLead (cs : List Char) : Prop where
  blank_or_colon : ∀ c ∈ cs, isBlank c = true ∨ c = ':'
  one_colon : cs.count ':' ≤ 1

/-- A text that begins with `Code:` or with six digits. -/
def OpensListing (cs : List Char) : Prop :=
  "Code:".toList <+: cs ∨
    ∃ digits, digits <+: cs ∧ digits.length = 6 ∧ ∀ c ∈ digits, c.isDigit = true

/-- The part is where the list of students begins. -/
def BeginsListing (part : List Char) : Prop :=
  ∃ lead rest, part = lead ++ rest ∧ IsLead lead ∧ OpensListing rest

/-- What follows blank characters and a colon at most. -/
def afterLeadIn (part : List Char) : List Char :=
  trimStart ((afterLead? [':'] (trimStart part)).getD (trimStart part))

theorem exists_lead (part : List Char) : ∃ lead, IsLead lead ∧ part = lead ++ afterLeadIn part := by
  have hcount : ∀ blanks : List Char, (∀ c ∈ blanks, isBlank c = true) → blanks.count ':' = 0 :=
    fun blanks h => List.count_eq_zero.mpr fun hmem => absurd (h ':' hmem) (by decide)
  -- blanks, then a colon if there is one, then blanks again
  obtain ⟨before, hpart, hbefore⟩ := exists_append_trimStart part
  cases hcolon : afterLead? [':'] (trimStart part) with
  | none =>
    refine ⟨before, ⟨fun c hc => .inl (hbefore c hc), by rw [hcount before hbefore]; omega⟩, ?_⟩
    rw [afterLeadIn, hcolon, Option.getD_none, trimStart_trimStart]
    exact hpart
  | some rest =>
    obtain ⟨after, hrest, hafter⟩ := exists_append_trimStart rest
    refine ⟨before ++ ':' :: after, ⟨fun c hc => ?_, ?_⟩, ?_⟩
    · rcases List.mem_append.mp hc with hc | hc
      · exact .inl (hbefore c hc)
      · rcases List.mem_cons.mp hc with rfl | hc
        · exact .inr rfl
        · exact .inl (hafter c hc)
    · rw [List.count_append, List.count_cons_self, hcount before hbefore, hcount after hafter]
    · rw [afterLeadIn, hcolon, Option.getD_some, List.append_assoc, List.cons_append, ← hrest,
        ← List.singleton_append, ← afterLead?_eq_some_iff.mp hcolon]
      exact hpart

/-- The lead is passed over up to a character that can stand in none. -/
theorem afterLeadIn_append {lead rest : List Char} (h : IsLead lead)
    (hrest : ∀ c ∈ rest.head?, isBlank c = false ∧ c ≠ ':') :
    afterLeadIn (lead ++ rest) = rest := by
  have htrim : trimStart rest = rest := trimStart_eq_self_iff.mpr fun c hc => (hrest c hc).1
  have hblank : ∀ blanks : List Char, (∀ c ∈ blanks, c ∈ lead) → ':' ∉ blanks →
      ∀ c ∈ blanks, isBlank c = true := by
    intro blanks hsub hcolon c hc
    refine (h.blank_or_colon c (hsub c hc)).resolve_right ?_
    rintro rfl
    exact hcolon hc
  -- the only colon of the lead is the one that is skipped, with the blanks on both sides of it
  by_cases hmem : ':' ∈ lead
  · obtain ⟨before, after, rfl⟩ := List.append_of_mem hmem
    have hone := h.one_colon
    rw [List.count_append, List.count_cons_self] at hone
    have hbefore : ':' ∉ before := fun hin => by
      have := List.count_pos_iff.mpr hin
      omega
    have hafter : ':' ∉ after := fun hin => by
      have := List.count_pos_iff.mpr hin
      omega
    have hstart : trimStart (before ++ ':' :: after ++ rest) = ':' :: (after ++ rest) := by
      rw [List.append_assoc, trimStart_append (hblank before (by simp +contextual) hbefore)]
      rfl
    have hcolon : afterLead? [':'] (':' :: (after ++ rest)) = some (after ++ rest) :=
      afterLead?_eq_some_iff.mpr rfl
    rw [afterLeadIn, hstart, hcolon, Option.getD_some,
      trimStart_append (hblank after (by simp +contextual) hafter), htrim]
  · -- without a colon the lead is blank, and what follows it does not begin with a colon either
    have hstart : trimStart (lead ++ rest) = rest := by
      rw [trimStart_append (hblank lead (fun _ => id) hmem), htrim]
    have hcolon : afterLead? [':'] rest = none := by
      cases hlead : afterLead? [':'] rest with
      | none => rfl
      | some tail =>
        obtain rfl := afterLead?_eq_some_iff.mp hlead
        exact absurd rfl (hrest ':' rfl).2
    rw [afterLeadIn, hstart, hcolon, Option.getD_none, htrim]

theorem head_of_opensListing {cs : List Char} (h : OpensListing cs) :
    ∀ c ∈ cs.head?, isBlank c = false ∧ c ≠ ':' := by
  -- a letter or a digit: neither is blank or a colon
  rcases h with ⟨rest, rfl⟩ | ⟨digits, ⟨rest, rfl⟩, hlen, hdigits⟩
  · rintro c hc
    obtain rfl := Option.some.inj hc
    decide
  · cases digits with
    | nil => cases hlen
    | cons d digits =>
      rintro c hc
      obtain rfl := Option.some.inj hc
      have hrange : 48 ≤ d.toNat ∧ d.toNat ≤ 57 :=
        Char.isDigit_iff_toNat.mp (hdigits d List.mem_cons_self)
      constructor
      · simp only [isBlank, Bool.or_eq_false_iff, Bool.and_eq_false_iff, decide_eq_false_iff_not,
          beq_eq_false_iff_ne]
        omega
      · rintro rfl
        exact absurd hrange (by decide)

/-- Six digits are what the first six characters are, all of them digits. -/
theorem countP_take_eq_six_iff {cs : List Char} : (cs.take 6).countP Char.isDigit = 6 ↔
    ∃ digits, digits <+: cs ∧ digits.length = 6 ∧ ∀ c ∈ digits, c.isDigit = true := by
  constructor
  · intro h
    have hcount := List.countP_le_length (p := Char.isDigit) (l := cs.take 6)
    have hlen : (cs.take 6).length = 6 := by
      have := List.length_take_le 6 cs
      omega
    exact ⟨cs.take 6, List.take_prefix 6 cs, hlen, List.countP_eq_length.mp (h.trans hlen.symm)⟩
  · rintro ⟨digits, hprefix, hlen, hdigits⟩
    rw [← hlen, ← List.prefix_iff_eq_take.mp hprefix]
    exact List.countP_eq_length.mpr hdigits

theorem startsListing_iff {part : List Char} : startsListing part = true ↔ BeginsListing part := by
  have htest : startsListing part = true ↔ OpensListing (afterLeadIn part) := by
    rw [OpensListing, ← countP_take_eq_six_iff, ← startsWith_iff,
      ← beq_iff_eq (a := List.countP _ _), ← Bool.or_eq_true]
    rfl
  rw [htest]
  constructor
  · intro h
    obtain ⟨lead, hlead, hpart⟩ := exists_lead part
    exact ⟨lead, _, hpart, hlead, h⟩
  · rintro ⟨lead, rest, rfl, hlead, hrest⟩
    rwa [afterLeadIn_append hlead (head_of_opensListing hrest)]

/-! ### Facts

A part is kept if it is not empty, is trimmed and has none of the marks of a listing in it. From the
part where the list of students begins, everything is left out, so what is kept are facts before it.
-/

/-- A part of a row that states a fact about the module. The last three conditions name what a row
may hold beside facts, and the one before them excludes where the list of students begins. -/
structure StatesFact (part : List Char) : Prop where
  ne_nil : part ≠ []
  trimmed : trim part = part
  noListing : ¬ BeginsListing part
  noOrganiser : ¬ "Module Organiser".toList <:+: part
  noTarget : ¬ "Actual (Target)".toList <:+: part
  noSequence : ¬ "Seq:".toList <+: part

theorem statesFact_iff {part : List Char} : StatesFact part ↔
    trim part = part ∧ startsListing part = false ∧ isFact part = true := by
  simp only [isFact, Bool.not_eq_true', Bool.or_eq_false_iff, List.isEmpty_eq_false_iff]
  simp only [← Bool.not_eq_true, startsListing_iff, holds_iff, startsWith_iff]
  constructor
  · rintro ⟨hne, htrim, hlisting, horganiser, htarget, hsequence⟩
    exact ⟨htrim, hlisting, ⟨⟨hne, horganiser⟩, htarget⟩, hsequence⟩
  · rintro ⟨htrim, hlisting, ⟨⟨hne, horganiser⟩, htarget⟩, hsequence⟩
    exact ⟨hne, htrim, hlisting, horganiser, htarget, hsequence⟩

/-- The row is empty, or each of its parts states a fact. An empty row is cut into one empty part,
which states nothing. -/
def OnlyFacts (row : List Char) : Prop :=
  splitOn partSeparator row = [[]] ∨ ∀ part ∈ splitOn partSeparator row, StatesFact part

section

variable {row part : List Char}

theorem statesFact_of_mem_facts (h : part ∈ facts row) : StatesFact part := by
  obtain ⟨hmem, hfact⟩ := List.mem_filter.mp h
  have hlisting := List.mem_takeWhile_imp hmem
  obtain ⟨raw, -, rfl⟩ := List.mem_map.mp ((List.takeWhile_sublist _).subset hmem)
  exact statesFact_iff.mpr ⟨trim_trim raw, by simpa using hlisting, hfact⟩

/-- If the parts of a row state facts, all of them are kept. -/
theorem facts_eq_parts (h : ∀ part ∈ splitOn partSeparator row, StatesFact part) :
    facts row = splitOn partSeparator row := by
  have hkept : ∀ part ∈ splitOn partSeparator row,
      trim part = part ∧ startsListing part = false ∧ isFact part = true :=
    fun part hpart => statesFact_iff.mp (h part hpart)
  have htrim : (splitOn partSeparator row).map trim = splitOn partSeparator row := by
    conv_rhs => rw [← List.map_id (splitOn partSeparator row)]
    exact List.map_congr_left fun part hpart => (hkept part hpart).1
  have hall : (splitOn partSeparator row).takeWhile (fun part => !startsListing part) =
      splitOn partSeparator row :=
    List.takeWhile_eq_self_iff.mpr fun part hpart => by rw [(hkept part hpart).2.1]; rfl
  rw [facts, htrim, hall]
  exact List.filter_eq_self.mpr fun part hpart => (hkept part hpart).2.2

/-- Cleaning leaves a row as it is iff the row holds only facts. If the row has kept its length, no
part was left out and none was trimmed, so all its parts are facts as they stand. -/
theorem cleanRow_eq_self_iff : cleanRow row = row ↔ OnlyFacts row := by
  constructor
  · intro hclean
    by_cases hnil : facts row = []
    · -- the row is empty, and so is its only part
      rw [cleanRow, hnil] at hclean
      subst hclean
      exact .inl rfl
    · -- no part was left out and nothing was trimmed off, since the row would be shorter
      let parts := splitOn partSeparator row
      have hwhole : joinWith partSeparator parts = row := joinWith_splitOn partSeparator_ne_nil row
      have htrimmed := (joinWith_map_sublist partSeparator trim_sublist parts).length_le
      have hsub : (facts row).Sublist (parts.map trim) := facts_sublist row
      have hkept := (joinWith_sublist partSeparator hsub).length_le
      have hsame : (joinWith partSeparator (facts row)).length =
          (joinWith partSeparator parts).length := by
        rw [hwhole]
        exact congrArg List.length hclean
      have hall : facts row = parts.map trim := by
        by_contra hne
        have hlt := length_joinWith_lt partSeparator_ne_nil hsub hnil hne
        omega
      have hle : (joinWith partSeparator parts).length ≤
          (joinWith partSeparator (parts.map trim)).length := by omega
      have hparts : parts.map trim = parts :=
        map_eq_self_of_joinWith trim_sublist hle
      right
      intro part hpart
      have hmem : part ∈ facts row := by rwa [hall, hparts]
      exact statesFact_of_mem_facts hmem
  · -- a row of facts, or the empty row, goes through the loop unchanged
    rintro (hempty | hfacts)
    · have hrow := joinWith_splitOn partSeparator_ne_nil row
      rw [hempty] at hrow
      subst hrow
      rfl
    · rw [cleanRow, facts_eq_parts hfacts, joinWith_splitOn partSeparator_ne_nil]

end

/-! ### Cleaning twice

The parts of a cleaned row are facts, but cutting the cleaned row need not give these parts: a new
separator may have come about where two parts were joined. The condition under which none does is on
the row before cleaning, and it is about bars only. -/

/-- No bar behind a space has another blank character than a space behind it. Such a bar would
become the beginning of a separator if the blank character were trimmed off. -/
def BarsSpaced (row : List Char) : Prop :=
  ∀ c ∈ row, isBlank c = true → c ≠ ' ' → ¬ [' ', '|', c] <:+: row

instance (row : List Char) : Decidable (BarsSpaced row) :=
  List.decidableBAll (fun c => isBlank c = true → c ≠ ' ' → ¬ [' ', '|', c] <:+: row) row

section

variable {row part : List Char}

/-- A separator begins in a part if it stands there, or if the part ends in its first two
characters. -/
theorem unbroken_partSeparator_iff : Unbroken partSeparator part partSeparator ↔
    ¬ partSeparator <:+: part ∧ ¬ [' ', '|'] <:+ part := by
  constructor
  · intro h
    refine ⟨?_, fun hsuffix => h [' ', '|'] (List.cons_ne_nil _ _) hsuffix (by decide)⟩
    exact (unbroken_nil_right_iff partSeparator_ne_nil).mp (h.of_prefix (List.nil_prefix))
  · rintro ⟨hwithin, hends⟩ v hne hsuffix ⟨rest, hsep⟩
    -- a separator that begins in the part and ends behind it has its first two characters in the
    -- part
    match v with
    | [] => exact hne rfl
    | [a] => simp [partSeparator] at hsep
    | [a, b] =>
      obtain ⟨rfl, rfl, -⟩ : ' ' = a ∧ '|' = b ∧ _ := by simpa [partSeparator] using hsep
      exact hends hsuffix
    | a :: b :: c :: v =>
      obtain ⟨rfl, rfl, rfl, -⟩ : ' ' = a ∧ '|' = b ∧ ' ' = c ∧ _ := by
        simpa [partSeparator] using hsep
      exact hwithin ((List.prefix_append partSeparator v).isInfix.trans hsuffix.isInfix)

/-- Trimming brings no bar to the end of a part where bars are set off by spaces. -/
theorem BarsSpaced.unbroken_trim (h : BarsSpaced row) (hpart : part <:+: row)
    (hu : Unbroken partSeparator part partSeparator) :
    Unbroken partSeparator (trim part) partSeparator := by
  obtain ⟨hwithin, hends⟩ := unbroken_partSeparator_iff.mp hu
  refine unbroken_partSeparator_iff.mpr
    ⟨fun hsep => hwithin (hsep.trans (trim_isInfix part)), fun hbar => ?_⟩
  have hstart : trimStart part <:+ part := trimStart_isSuffix part
  obtain ⟨blanks, hblanks, hblank⟩ := exists_trimEnd_append (trimStart part)
  obtain ⟨front, hfront⟩ : [' ', '|'] <:+ trimEnd (trimStart part) := hbar
  -- the part ends in a bar only if nothing blank stands behind it
  cases blanks with
  | nil =>
    rw [List.append_nil] at hblanks
    rw [← hblanks] at hfront
    exact hends (List.IsSuffix.trans ⟨front, hfront⟩ hstart)
  | cons c blanks =>
    -- the blank character behind the bar is a space or it is not
    have hthree : [' ', '|', c] <:+: part := by
      refine List.IsInfix.trans ⟨front, blanks, ?_⟩ hstart.isInfix
      rw [hblanks, ← hfront]
      simp
    by_cases hc : c = ' '
    · subst hc
      exact hwithin hthree
    · have hrow := hthree.trans hpart
      exact h c (hrow.subset (by simp)) (hblank c List.mem_cons_self) hc hrow

theorem BarsSpaced.recuts_map_trim (h : BarsSpaced row) {parts : List (List Char)}
    (hparts : ∀ part ∈ parts, part <:+: row) (hr : Recuts partSeparator parts) :
    Recuts partSeparator (parts.map trim) := by
  induction parts with
  | nil => exact hr
  | cons part parts ih =>
    obtain ⟨hpart, hrest⟩ := List.forall_mem_cons.mp hparts
    by_cases hnil : parts = []
    · subst hnil
      have hwithin := (unbroken_nil_right_iff partSeparator_ne_nil).mp hr
      exact (unbroken_nil_right_iff partSeparator_ne_nil).mpr fun hsep =>
        hwithin (hsep.trans (trim_isInfix part))
    · obtain ⟨hu, hr⟩ := (recuts_cons hnil).mp hr
      exact (recuts_cons (by simpa using hnil)).mpr ⟨h.unbroken_trim hpart hu, ih hrest hr⟩

/-- Where bars are set off by spaces, a row holds only facts once it was cleaned. The cleaned row is
cut into the parts that it was put together from. -/
theorem BarsSpaced.onlyFacts_cleanRow (h : BarsSpaced row) : OnlyFacts (cleanRow row) := by
  by_cases hnil : facts row = []
  · rw [cleanRow, hnil]
    exact .inl rfl
  · have hparts : Recuts partSeparator ((splitOn partSeparator row).map trim) :=
      h.recuts_map_trim (fun _ => infix_of_mem_splitOn partSeparator_ne_nil)
        (recuts_splitOn partSeparator_ne_nil row)
    have hfacts : splitOn partSeparator (cleanRow row) = facts row :=
      splitOn_joinWith partSeparator_ne_nil (hparts.sublist (facts_sublist row) hnil)
    right
    rw [hfacts]
    exact fun part => statesFact_of_mem_facts

end

theorem cleanTableInfo_eq_self_iff {text : String} :
    cleanTableInfo text = text ↔ OnlyFacts text.toList := by
  rw [← cleanRow_eq_self_iff, cleanTableInfo, String.ext_iff, String.toList_ofList]

/-- Cleaning a row twice is cleaning it once iff what the first time leaves holds only facts, and so
it is wherever bars are set off by spaces. -/
theorem cleanTableInfo_twice (text : String) :
    (cleanTableInfo (cleanTableInfo text) = cleanTableInfo text ↔
      OnlyFacts (cleanTableInfo text).toList) ∧
    (BarsSpaced text.toList → cleanTableInfo (cleanTableInfo text) = cleanTableInfo text) := by
  refine ⟨cleanTableInfo_eq_self_iff, fun h => cleanTableInfo_eq_self_iff.mpr ?_⟩
  rw [cleanTableInfo, String.toList_ofList]
  exact h.onlyFacts_cleanRow

/-- A row with a tab and a no-break space, neither of them behind a bar. -/
theorem cleanTableInfo_twice_spaced :
    let row := "\tSEM1 | | Seq: 2 |  20\u00a0| Code: A"
    BarsSpaced row.toList ∧ cleanTableInfo (cleanTableInfo row) = cleanTableInfo row := by
  intro row
  have hspaced : BarsSpaced row.toList := by decide
  exact ⟨hspaced, (cleanTableInfo_twice row).2 hspaced⟩

/-- The tab behind the first bar is trimmed off, so the bar joins the separator behind it. Only the
second time the list of students is seen. -/
theorem not_cleanTableInfo_twice_tabbed :
    let row := "SEM1 |\t | | Code: Smith"
    cleanTableInfo row = "SEM1 | | | Code: Smith" ∧
      cleanTableInfo (cleanTableInfo row) = "SEM1 | |" := by
  decide

/-! ### The row of a scrubbed record

The row is cleaned and scrubbed in turn until neither changes it. So both leave it as it is, and
what each of the two says about rows that it leaves as they are holds of it. -/

/-- Cleaning and scrubbing each leave the row of a scrubbed record as it is: it holds only facts,
and nothing in it is left to scrub. -/
theorem Scrubber.Proper.clears_tableInfo {s : Scrubber} (h : s.Proper) (r : Record) :
    let row := (s.scrubRecord r).tableInfo
    cleanTableInfo row = row ∧ s.scrub row = row ∧ OnlyFacts row.toList ∧ s.Clears row := by
  intro row
  obtain ⟨hclean, hscrub⟩ : cleanTableInfo row = row ∧ s.scrub row = row :=
    s.settled_scrubRow r.tableInfo
  refine ⟨hclean, hscrub, cleanTableInfo_eq_self_iff.mp hclean, h.clears_of_settled ?_⟩
  have honce := s.scrubOnce_scrubChars row.toList
  rwa [Scrubber.scrub_eq_self_iff.mp hscrub] at honce

/-- The row of a record that was scrubbed under some rules is settled: cleaning and scrubbing leave
it as it is, it holds only facts, and nothing in it is left that the rules name. -/
theorem settled_tableInfo [Pattern.Dialect] {rules : Rules} {s : Scrubber}
    (h : Scrubber.ofRules rules = .ok s) (r : Record) :
    let row := (s.scrubRecord r).tableInfo
    cleanTableInfo row = row ∧ s.scrub row = row ∧ OnlyFacts row.toList ∧ Clean rules row := by
  intro row
  obtain ⟨hclean, hscrub, hfacts, hclears⟩ := (Scrubber.proper_of_ofRules h).clears_tableInfo r
  exact ⟨hclean, hscrub, hfacts, hclears.clean h⟩

/-- Scrubbing brings a separator about, and with it the list of students. -/
theorem settled_tableInfo_exposed :
    let rules : Rules := ⟨["Ann "], ["j*"]⟩
    let s : Scrubber := ⟨["Ann".toList], [.loop (.char (.folded (.one 'j'))) true]⟩
    let row := (s.scrubRecord { Record.blank "MTH1" "Year 1" with
      tableInfo := "SEM1 |ann Code: Smith | 100123456" }).tableInfo
    Scrubber.ofRules rules = .ok s ∧ row = "SEM1" ∧
      cleanTableInfo row = row ∧ s.scrub row = row ∧ OnlyFacts row.toList ∧ Clean rules row := by
  intro rules s row
  have hs : Scrubber.ofRules rules = .ok s := by decide
  have hrow : row = "SEM1" := by decide +kernel
  exact ⟨hs, hrow, settled_tableInfo hs _⟩

end Scrub

end Prospectus
