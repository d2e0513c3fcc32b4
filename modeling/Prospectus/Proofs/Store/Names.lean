import Prospectus.Proofs.Pattern.Matches
import Prospectus.Proofs.Pattern.Reading
import Prospectus.Proofs.Pattern.Search
import Prospectus.Proofs.Store.Path
import Prospectus.Store.Documents

/-! # Names of snapshot files

The name of a snapshot file is a prefix, a slug and the extension. Which names these are is said by
an expression, in which the prefix is escaped:

    prefix ──snapshotExpression──▶ text ──Reader.whole──▶ written ──toPattern?──▶ snapshotPattern

`namesSnapshots` says that every prefix has such a pattern, whatever characters it holds, and that
`isSnapshotName` decides whether a name is matched. The name that is made for a label of digits is
one of them, and no two labels share it.

Escaping is what the first of these rests on. Without it a prefix with a dot or a plus in it would
be an expression of its own, and the names made with it would not be found again. The only thing
that can keep a prefix from being used is its length: the pattern grows with it, and a dialect may
have no room for one that is too large (`PrefixFits`). -/

namespace Prospectus

/-- Four ASCII digits, a slash, and further ASCII digits. This is the form of labels for which files
are named. -/
def AcademicYear.Numbered (y : AcademicYear) : Prop :=
  ∃ year number : List Char, y.label.toList = year ++ '/' :: number ∧ year.length = 4 ∧
    number ≠ [] ∧ ∀ c ∈ year ++ number, c.isDigit = true

namespace Store

open Pattern

/-! ### Slugs

The form of a slug, as a condition on characters and as a function that decides it. Digits of other
scripts count as well, since the expression says `\d`; the slugs that are made have ASCII digits
only. -/

/-- Four decimal digits, an underscore, and further decimal digits. The digits may be of any script.
-/
def IsSlug (cs : List Char) : Prop :=
  ∃ year number : List Char, cs = year ++ '_' :: number ∧ year.length = 4 ∧ number ≠ [] ∧
    ∀ c ∈ year ++ number, Text.isDecimal c = true

theorem isDecimal_of_isDigit {c : Char} (h : c.isDigit = true) : Text.isDecimal c = true := by
  have hrange : 48 ≤ c.toNat ∧ c.toNat ≤ 57 := Char.isDigit_iff_toNat.mp h
  rw [Text.isDecimal, if_pos (by omega)]
  exact h

/-- Whether a text is four digits, an underscore, some digits and the extension. Digits of any
script count. -/
def isSlugWithExtension (cs : List Char) : Bool :=
  let year := cs.take 4
  year.length == 4 && year.all Text.isDecimal &&
    match cs.drop 4 with
    | '_' :: rest =>
      let number := rest.takeWhile Text.isDecimal
      !number.isEmpty && rest.drop number.length == extension.toList
    | _ => false

/-- Whether a name is one of a snapshot file. -/
def isSnapshotName (filePrefix name : String) : Bool :=
  match Text.afterLead? filePrefix.toList name.toList with
  | some rest => isSlugWithExtension rest
  | none => false

theorem isSlugWithExtension_iff {cs : List Char} :
    isSlugWithExtension cs = true ↔ ∃ slug, IsSlug slug ∧ cs = slug ++ extension.toList := by
  simp only [isSlugWithExtension, Bool.and_eq_true, beq_iff_eq, List.all_eq_true]
  constructor
  · -- the tests are made from the left: four digits, an underscore, more digits and the extension
    rintro ⟨⟨hlength, hyear⟩, h⟩
    split at h
    · next rest hdrop =>
      simp only [Bool.and_eq_true, Bool.not_eq_true', List.isEmpty_eq_false_iff, beq_iff_eq] at h
      obtain ⟨hne, hrest⟩ := h
      have hsplit : rest.takeWhile Text.isDecimal ++ extension.toList = rest := by
        rw [← hrest]
        exact List.prefix_iff_eq_append.mp (List.takeWhile_prefix _)
      refine ⟨_, ⟨cs.take 4, rest.takeWhile Text.isDecimal, rfl, hlength, hne, ?_⟩, ?_⟩
      · exact List.forall_mem_append.mpr ⟨hyear, fun c => List.all_eq_true.mp List.all_takeWhile c⟩
      · rw [List.append_assoc, List.cons_append, hsplit, ← hdrop, List.take_append_drop]
    · cases h
  · -- and taking digits until something else comes finds the number of a slug again
    rintro ⟨slug, ⟨year, number, rfl, hlength, hne, hall⟩, rfl⟩
    obtain ⟨hyear, hnumber⟩ := List.forall_mem_append.mp hall
    have htake : (number ++ extension.toList).takeWhile Text.isDecimal = number := by
      have hdot : Text.isDecimal '.' = false := by decide
      rw [List.takeWhile_append_of_pos hnumber]
      simp [extension, hdot]
    rw [List.append_assoc, List.cons_append, ← hlength, List.take_left, List.drop_left]
    exact ⟨⟨rfl, hyear⟩, by simp [htake, hne]⟩

theorem isSnapshotName_iff {filePrefix name : String} : isSnapshotName filePrefix name = true ↔
    ∃ slug, IsSlug slug ∧ name.toList = filePrefix.toList ++ slug ++ extension.toList := by
  rw [isSnapshotName]
  constructor
  · intro h
    split at h
    · next rest hrest =>
      obtain ⟨slug, hslug, rfl⟩ := isSlugWithExtension_iff.mp h
      exact ⟨slug, hslug, by rw [Text.afterLead?_eq_some_iff.mp hrest, List.append_assoc]⟩
    · cases h
  · rintro ⟨slug, hslug, hname⟩
    rw [List.append_assoc] at hname
    rw [Text.afterLead?_eq_some_iff.mpr hname]
    exact isSlugWithExtension_iff.mpr ⟨slug, hslug, rfl⟩

/-! ### The expression for names

The expression is read in the order of its parts: the assertion at the front, the prefix character
by character, and the part that is the same for all prefixes. What was read is a sequence, and the
pattern that it means is the sequence of what its parts mean. -/

/-- What follows the prefix in the expression for names. -/
def slugExpression : List Char := "\\d\x7b4\x7d_\\d+\\.json$".toList

theorem snapshotExpression_eq (filePrefix : String) :
    snapshotExpression filePrefix = '^' :: escaped filePrefix.toList ++ slugExpression := rfl

/-- The pattern that the expression stands for. -/
def snapshotPattern (filePrefix : String) : Pattern :=
  sequence ([look .textStart] ++ filePrefix.toList.map exactly ++
    [times (char .decimal) 4, exactly '_', oneOrMore (char .decimal) true] ++
    extension.toList.map exactly ++ [look .textEnd])

/-- The parts of the expression. -/
def snapshotParts (filePrefix : String) : List Written :=
  [.look .caret] ++ filePrefix.toList.map (fun c => .literal c false) ++
    [.repeated (.named .decimal false) 4 (some 4) true, .literal '_' false,
      .repeated (.named .decimal false) 1 none true] ++
    extension.toList.map (fun c => .literal c false) ++ [.look .dollar]

/-- The expression as it is read. -/
def writtenName (filePrefix : String) : Written :=
  Reader.ofReversed (snapshotParts filePrefix).reverse

theorem run_items_slugExpression {steps : Nat} {done : List Written} :
    (Reader.items (steps + 12) done).run ⟨slugExpression, false, []⟩ =
      some (Reader.ofReversed ((.look .dollar :: (extension.toList.map fun c =>
        Written.literal c false).reverse) ++ .repeated (.named .decimal false) 1 none true ::
        .literal '_' false :: .repeated (.named .decimal false) 4 (some 4) true :: done),
        ⟨[], false, []⟩) := by
  have hchars : slugExpression = ['\\', 'd', '\x7b', '4', '\x7d', '_', '\\', 'd', '+', '\\', '.',
    'j', 's', 'o', 'n', '$'] := rfl
  rw [hchars, Reader.run_items_decimal, Reader.run_items_count rfl rfl (by simp),
    Reader.run_items_literal (by decide), Reader.run_items_decimal,
    Reader.run_items_plus rfl (by simp), Reader.run_items_backslash (by decide),
    Reader.run_items_literal (by decide), Reader.run_items_literal (by decide),
    Reader.run_items_literal (by decide), Reader.run_items_literal (by decide),
    Reader.run_items_dollar, Reader.run_items_nil]
  rfl

theorem whole_snapshotExpression (filePrefix : String) :
    Reader.whole (snapshotExpression filePrefix) =
      some (writtenName filePrefix) := by
  -- one step for each character of the prefix, and a few more
  obtain ⟨steps, hsteps⟩ : ∃ steps, 3 * (snapshotExpression filePrefix).length + 2 =
      steps + 12 + filePrefix.toList.length + 1 := by
    have hle := Reader.length_le_escaped filePrefix.toList
    have hslug : slugExpression.length = 16 := rfl
    refine ⟨3 * (snapshotExpression filePrefix).length + 2 - (13 + filePrefix.toList.length), ?_⟩
    simp only [snapshotExpression_eq, List.cons_append, List.length_cons, List.length_append]
    omega
  have hrun : (Reader.items (3 * (snapshotExpression filePrefix).length + 2) []).run
      ⟨snapshotExpression filePrefix, false, []⟩ =
        some (writtenName filePrefix, ⟨[], false, []⟩) := by
    rw [hsteps, snapshotExpression_eq, List.cons_append, Reader.run_items_caret,
      Reader.run_items_escaped, run_items_slugExpression, writtenName, snapshotParts]
    simp [extension]
  exact Reader.whole_eq_some hrun

theorem toPattern?_writtenName [Dialect] (filePrefix : String) :
    (writtenName filePrefix).toPattern? {} = some (snapshotPattern filePrefix, {}) := by
  -- a character of the prefix stands for itself
  have hliteral : ∀ cs : List Char,
      List.Forall₂ (fun (a : Written) p => a.toPattern? {} = some (p, {}))
        (cs.map fun c => .literal c false) (cs.map exactly) := by
    intro cs
    rw [List.forall₂_map_left_iff, List.forall₂_map_right_iff]
    exact List.forall₂_same.mpr fun c _ => rfl
  refine Reader.toPattern?_ofReversed ?_
  rw [List.reverse_reverse]
  -- the parts in their order: the anchor, the prefix, the two numbers with the underscore between,
  -- the extension, the anchor
  refine List.rel_append (List.rel_append (List.rel_append (List.rel_append ?_ ?_) ?_) ?_) ?_
  · exact .cons rfl .nil
  · exact hliteral _
  · exact .cons rfl (.cons rfl (.cons rfl .nil))
  · exact hliteral _
  · exact .cons rfl .nil

theorem depth_writtenName_le (filePrefix : String) : (writtenName filePrefix).depth ≤ 2 := by
  refine Reader.depth_ofReversed_le fun a ha => ?_
  simp only [snapshotParts, List.mem_reverse, List.mem_append, List.mem_map, List.mem_cons,
    List.not_mem_nil, or_false] at ha
  rcases ha with (((rfl | ⟨c, -, rfl⟩) | rfl | rfl | rfl) | ⟨c, -, rfl⟩) | rfl
  all_goals first | exact Nat.zero_le _ | exact Nat.le_refl _

/-- The dialect has room for the pattern of the names with a prefix. It is a condition on the prefix
alone, and can be decided. -/
def PrefixFits [Dialect] (filePrefix : String) : Prop :=
  Dialect.fits false (writtenName filePrefix) = true

instance [Dialect] (filePrefix : String) : Decidable (PrefixFits filePrefix) :=
  inferInstanceAs (Decidable (_ = true))

/-- The expression is well-formed and never too deep, so it can only be refused for its length. Its
depth does not grow with the prefix. -/
theorem snapshotPattern?_eq [Dialect] (filePrefix : String) : snapshotPattern? filePrefix =
    if PrefixFits filePrefix then some (snapshotPattern filePrefix) else none := by
  have hdepth := depth_writtenName_le filePrefix
  have hshallow : ¬ (writtenName filePrefix).depth > maxDepth := by
    unfold maxDepth
    omega
  rw [snapshotPattern?, ofText?, String.toList_ofList, whole_snapshotExpression]
  by_cases hfits : Dialect.fits false (writtenName filePrefix) = true
  · simp [PrefixFits, hshallow, hfits, toPattern?_writtenName]
  · simp [PrefixFits, hfits]

theorem matchesAll_slug_iff {u s v : List Char} :
    MatchesAll [times (char .decimal) 4, exactly '_', oneOrMore (char .decimal) true] u s v ↔
      IsSlug s := by
  simp only [matchesAll_cons_iff, matchesAll_nil_iff, matches_times_char_iff, matches_exactly_iff,
    matches_oneOrMore_char_iff, CharClass.contains]
  constructor
  · rintro ⟨year, _, rfl, ⟨hlength, hyear⟩, _, _, rfl, rfl, number, _, rfl, ⟨hne, hnumber⟩, rfl⟩
    exact ⟨year, number, by simp, hlength, hne, List.forall_mem_append.mpr ⟨hyear, hnumber⟩⟩
  · rintro ⟨year, number, rfl, hlength, hne, hall⟩
    obtain ⟨hyear, hnumber⟩ := List.forall_mem_append.mp hall
    exact ⟨year, _, rfl, ⟨hlength, hyear⟩, ['_'], number, rfl, rfl, number, [], by simp,
      ⟨hne, hnumber⟩, rfl⟩

/-- The assertions at both ends leave nothing around the name. So the pattern occurs in a name only
if it is the whole name. -/
theorem occurs_snapshotPattern_iff {filePrefix : String} {cs : List Char} :
    (snapshotPattern filePrefix).Occurs cs ↔
      ∃ slug, IsSlug slug ∧ cs = filePrefix.toList ++ slug ++ extension.toList := by
  simp only [Occurs, snapshotPattern, matches_sequence_iff, matchesAll_append_iff,
    matchesAll_singleton_iff, matches_look_iff, matchesAll_map_exactly_iff, matchesAll_slug_iff,
    Look.holds, Option.isNone_iff_eq_none, List.getLast?_eq_none_iff, List.head?_eq_none_iff]
  constructor
  · rintro ⟨u, _, v, rfl, _, _, rfl, ⟨_, _, rfl, ⟨_, slug, rfl, ⟨_, _, rfl, ⟨rfl, rfl⟩, rfl⟩,
      hslug⟩, rfl⟩, rfl, rfl⟩
    exact ⟨slug, hslug, by simp⟩
  · rintro ⟨slug, hslug, rfl⟩
    refine ⟨[], filePrefix.toList ++ slug ++ extension.toList, [], by simp,
      filePrefix.toList ++ slug ++ extension.toList, [], by simp, ?_, rfl, rfl⟩
    refine ⟨filePrefix.toList ++ slug, extension.toList, rfl, ?_, rfl⟩
    exact ⟨filePrefix.toList, slug, rfl, ⟨[], filePrefix.toList, rfl, ⟨rfl, rfl⟩, rfl⟩, hslug⟩

/-- The search for the pattern picks out the names of snapshot files. -/
theorem occursIn_snapshotPattern (filePrefix : String) :
    (fun name : String => (snapshotPattern filePrefix).occursIn name.toList) =
      isSnapshotName filePrefix := by
  funext name
  rw [Bool.eq_iff_iff, occursIn_iff, occurs_snapshotPattern_iff, isSnapshotName_iff]

/-! ### Names made for labels

The slash of a label becomes an underscore. A label of digits has one slash, so it can be told from
the name; the prefix and the extension are the same for all names. -/

theorem toList_snapshotName {filePrefix : String} {y : AcademicYear} {year number : List Char}
    (hlabel : y.label.toList = year ++ '/' :: number)
    (hdigits : ∀ c ∈ year ++ number, c.isDigit = true) :
    (snapshotName filePrefix y).toList =
      filePrefix.toList ++ (year ++ '_' :: number) ++ extension.toList := by
  -- the digits of a label stay, only its slash is replaced
  have hkept : ∀ cs : List Char, (∀ c ∈ cs, c.isDigit = true) →
      (cs.flatMap fun c => if c = '/' then ['_'] else [c]) = cs := by
    intro cs hcs
    induction cs with
    | nil => rfl
    | cons c cs ih =>
      obtain ⟨hc, hcs⟩ := List.forall_mem_cons.mp hcs
      have hne : c ≠ '/' := by
        rintro rfl
        cases hc
      rw [List.flatMap_cons, if_neg hne, ih hcs, List.singleton_append]
  obtain ⟨hyear, hnumber⟩ := List.forall_mem_append.mp hdigits
  have hslug : y.slug.toList = year ++ '_' :: number := by
    rw [AcademicYear.slug, Text.replaceChar, String.toList_ofList, hlabel, List.flatMap_append,
      List.flatMap_cons, hkept year hyear, hkept number hnumber]
    rfl
  rw [snapshotName, String.toList_append, String.toList_append, hslug]

theorem isSnapshotName_snapshotName (filePrefix : String) {y : AcademicYear} (hy : y.Numbered) :
    isSnapshotName filePrefix (snapshotName filePrefix y) = true := by
  obtain ⟨year, number, hlabel, hlength, hne, hdigits⟩ := hy
  refine isSnapshotName_iff.mpr ⟨_, ⟨year, number, rfl, hlength, hne, ?_⟩,
    toList_snapshotName hlabel hdigits⟩
  exact fun c hc => isDecimal_of_isDigit (hdigits c hc)

theorem snapshotName_injective {filePrefix : String} {y z : AcademicYear} (hy : y.Numbered)
    (hz : z.Numbered) (h : snapshotName filePrefix y = snapshotName filePrefix z) : y = z := by
  obtain ⟨year, number, hlabel, hlength, -, hdigits⟩ := hy
  obtain ⟨year', number', hlabel', hlength', -, hdigits'⟩ := hz
  have hlists := congrArg String.toList h
  rw [toList_snapshotName hlabel hdigits, toList_snapshotName hlabel' hdigits',
    List.append_left_inj, List.append_right_inj] at hlists
  obtain ⟨rfl, hnumber⟩ := List.append_inj hlists (hlength.trans hlength'.symm)
  obtain rfl := List.tail_eq_of_cons_eq hnumber
  have hlabels : y.label = z.label := String.ext (hlabel.trans hlabel'.symm)
  cases y
  cases z
  exact congrArg AcademicYear.mk hlabels

/-- A name with an ordinary prefix is one that a path can step into. -/
theorem isName_snapshotName {filePrefix : String} (hslash : '/' ∉ filePrefix.toList)
    (hnull : '\x00' ∉ filePrefix.toList) {y : AcademicYear} (hy : y.Numbered) :
    Path.IsName (snapshotName filePrefix y) := by
  obtain ⟨year, number, hlabel, hlength, -, hdigits⟩ := hy
  have hchars : (snapshotName filePrefix y).toList =
      filePrefix.toList ++ (year ++ '_' :: number) ++ extension.toList :=
    toList_snapshotName hlabel hdigits
  -- every character of a name is a digit, the underscore, or one of the prefix or the extension
  have hmem : ∀ c, c.isDigit = false → c ≠ '_' → c ∉ extension.toList → c ∉ filePrefix.toList →
      c ∉ (snapshotName filePrefix y).toList := by
    intro c hdigit hscore hextension hc
    have hlabel : c ∉ year ++ number := fun h => by simp [hdigits c h] at hdigit
    rw [List.mem_append, not_or] at hlabel
    simp [hchars, hc, hlabel, hscore, hextension]
  refine ⟨?_, hmem _ (by decide) (by decide) (by decide) hslash,
    hmem _ (by decide) (by decide) (by decide) hnull⟩
  -- a step that is none or leads up ends in a dot or is empty
  have hlast : (snapshotName filePrefix y).toList.getLast? = some 'n' := by
    rw [hchars, List.getLast?_append]
    rfl
  have hidle : ∀ part : List Char, part.getLast? = some 'n' → part ≠ [] ∧ part ≠ ['.'] ∧
      part ≠ ['.', '.'] := by
    intro part hpart
    refine ⟨?_, ?_, ?_⟩ <;> (rintro rfl; cases hpart)
  obtain ⟨hempty, hdot, hup⟩ := hidle _ hlast
  rw [Path.stepOf?, if_neg (by simp only [hempty, hdot, or_self, not_false_eq_true]), if_neg hup,
    String.ofList_toList]

/-! ### Every prefix

What was shown of one prefix, for all of them. -/

/-- A prefix makes names for labels, and a pattern that tells these names from others. -/
structure NamesSnapshots [Dialect] (filePrefix : String) : Prop where
  /-- The expression for the prefix is well-formed, and refused only if the prefix is too long. Its
  pattern occurs in the names of snapshot files and in no others. -/
  pattern : ∃ a p, Reader.whole (snapshotExpression filePrefix) = some a ∧
    a.toPattern? {} = some (p, {}) ∧
    snapshotPattern? filePrefix = (if Dialect.fits false a then some p else none) ∧
    ∀ name, isSnapshotName filePrefix name = true ↔ p.Occurs name.toList
  /-- The name that is made for a label of digits is the name of a snapshot file. -/
  own : ∀ y : AcademicYear, y.Numbered →
    isSnapshotName filePrefix (snapshotName filePrefix y) = true
  /-- No two labels share a name. -/
  apart : ∀ y z : AcademicYear, y.Numbered → z.Numbered →
    snapshotName filePrefix y = snapshotName filePrefix z → y = z

theorem namesSnapshots [Dialect] (filePrefix : String) : NamesSnapshots filePrefix where
  pattern := ⟨writtenName filePrefix, snapshotPattern filePrefix,
    whole_snapshotExpression filePrefix, toPattern?_writtenName filePrefix,
    snapshotPattern?_eq filePrefix,
    fun _ => isSnapshotName_iff.trans occurs_snapshotPattern_iff.symm⟩
  own _ := isSnapshotName_snapshotName filePrefix
  apart _ _ := snapshotName_injective

end Store

end Prospectus
