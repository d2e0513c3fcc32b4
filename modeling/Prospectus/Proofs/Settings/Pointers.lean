import Mathlib.Data.List.Nodup
import Prospectus.Proofs.Numeral.Spelling
import Prospectus.Proofs.Settings.Unused
import Prospectus.Proofs.Sorting
import Prospectus.Proofs.Store.Path

/-!
# Pointers of unused settings

What nothing reads is found by comparing the texts of pointers, and is meant as a statement about
positions: a scalar of the tree is unused if its path of names and indexes leads through none of
the settings. The two agree (`covers_pointerOf_iff`), whatever names hold, since a text cut at its
slashes gives back the texts of its tokens (`splitOn_pathText`), and those tell the tokens that can
stand in one place of a tree (`eq_of_map_tokenText`). So the report lists every unused scalar once
(`reportUnused_exact`).
-/

namespace Prospectus.Settings

open Json (Value)
open Store.Path (splitOn_append_slash splitOn_of_no_slash)
open Text (splitOn)

/-! ### Positions in a tree

A position is a path of tokens, and a token is a name or an index. The program gathers pointers as
it goes; `leafPaths` gathers paths in the same way, and these are exactly the positions of scalars,
each once, as the names in an object are distinct. -/

/-- A step from a tree to one that stands in it. -/
inductive PathToken
  | name (name : String)
  | index (i : Nat)
  deriving DecidableEq

/-- A path of names and indexes leads from a tree to another one. Along a name that an object
repeats several paths lead on; in a normal tree there is one. -/
inductive Leads : Json → List PathToken → Json → Prop
  | here (j : Json) : Leads j [] j
  | item {items : List Json} {i : Nat} {x y : Json} {path : List PathToken}
      (hx : items[i]? = some x) (h : Leads x path y) : Leads (.arr items) (.index i :: path) y
  | member {members : List (String × Json)} {name : String} {x y : Json} {path : List PathToken}
      (hx : (name, x) ∈ members) (h : Leads x path y) : Leads (.obj members) (.name name :: path) y

/-- Neither an array nor an object. -/
def IsScalar : Json → Prop
  | .null | .bool _ | .num _ | .str _ => True
  | .arr _ | .obj _ => False

/-- A scalar stands at the path. -/
def ScalarAt (j : Json) (path : List PathToken) : Prop := ∃ x, Leads j path x ∧ IsScalar x

mutual

/-- The paths to the scalars of a tree, in the order in which their pointers are gathered. -/
def leafPaths : Json → List (List PathToken)
  | .arr items => itemPaths 0 items
  | .obj members => memberPaths members
  | .null | .bool _ | .num _ | .str _ => [[]]

def itemPaths (i : Nat) : List Json → List (List PathToken)
  | [] => []
  | x :: xs => (leafPaths x).map (.index i :: ·) ++ itemPaths (i + 1) xs

def memberPaths : List (String × Json) → List (List PathToken)
  | [] => []
  | (k, x) :: ms => (leafPaths x).map (.name k :: ·) ++ memberPaths ms

end

theorem scalarAt_of_isScalar {j : Json} (h : IsScalar j) {path : List PathToken} :
    ScalarAt j path ↔ path = [] := by
  constructor
  · rintro ⟨x, hx, -⟩
    cases hx with
    | here => rfl
    | item => exact h.elim
    | member => exact h.elim
  · rintro rfl
    exact ⟨j, .here j, h⟩

theorem scalarAt_arr {items : List Json} {path : List PathToken} :
    ScalarAt (.arr items) path ↔
      ∃ i x rest, items[i]? = some x ∧ path = .index i :: rest ∧ ScalarAt x rest := by
  constructor
  · rintro ⟨y, hy, hscalar⟩
    cases hy with
    | here => exact hscalar.elim
    | item hx h => exact ⟨_, _, _, hx, rfl, y, h, hscalar⟩
  · rintro ⟨i, x, rest, hx, rfl, y, hy, hscalar⟩
    exact ⟨y, .item hx hy, hscalar⟩

theorem scalarAt_obj {members : List (String × Json)} {path : List PathToken} :
    ScalarAt (.obj members) path ↔
      ∃ k x rest, (k, x) ∈ members ∧ path = .name k :: rest ∧ ScalarAt x rest := by
  constructor
  · rintro ⟨y, hy, hscalar⟩
    cases hy with
    | here => exact hscalar.elim
    | member hx h => exact ⟨_, _, _, hx, rfl, y, h, hscalar⟩
  · rintro ⟨k, x, rest, hx, rfl, y, hy, hscalar⟩
    exact ⟨y, .member hx hy, hscalar⟩

mutual

/-- All scalars are gathered, and nothing else. -/
theorem mem_leafPaths : (j : Json) → ∀ path, path ∈ leafPaths j ↔ ScalarAt j path
  | .null, path | .bool _, path | .num _, path | .str _, path => by
    rw [leafPaths, List.mem_singleton]
    apply Iff.symm
    apply scalarAt_of_isScalar
    trivial
  | .arr items, path => by
    rw [leafPaths, mem_itemPaths items, scalarAt_arr]
    simp only [Nat.zero_add]
  | .obj members, path => by rw [leafPaths, mem_memberPaths members, scalarAt_obj]

theorem mem_itemPaths : (items : List Json) → ∀ start path, path ∈ itemPaths start items ↔
    ∃ i x rest, items[i]? = some x ∧ path = .index (start + i) :: rest ∧ ScalarAt x rest
  | [], start, path => by simp [itemPaths]
  | x :: xs, start, path => by
    simp only [itemPaths, List.mem_append, List.mem_map, mem_leafPaths x, mem_itemPaths xs]
    constructor
    · rintro (⟨rest, hrest, rfl⟩ | ⟨i, y, rest, hy, rfl, hrest⟩)
      · exact ⟨0, x, rest, rfl, rfl, hrest⟩
      · exact ⟨i + 1, y, rest, hy, by rw [Nat.add_right_comm, Nat.add_assoc], hrest⟩
    · rintro ⟨i, y, rest, hy, rfl, hrest⟩
      cases i with
      | zero =>
        obtain rfl : x = y := by simpa using hy
        exact .inl ⟨rest, hrest, rfl⟩
      | succ i => exact .inr ⟨i, y, rest, hy, by rw [Nat.add_right_comm, Nat.add_assoc], hrest⟩

theorem mem_memberPaths : (members : List (String × Json)) → ∀ path,
    path ∈ memberPaths members ↔
      ∃ k x rest, (k, x) ∈ members ∧ path = .name k :: rest ∧ ScalarAt x rest
  | [], path => by simp [memberPaths]
  | (l, x) :: ms, path => by
    simp only [memberPaths, List.mem_append, List.mem_map, mem_leafPaths x, mem_memberPaths ms]
    constructor
    · rintro (⟨rest, hrest, rfl⟩ | ⟨k, y, rest, hy, rfl, hrest⟩)
      · exact ⟨l, x, rest, List.mem_cons_self, rfl, hrest⟩
      · exact ⟨k, y, rest, List.mem_cons_of_mem _ hy, rfl, hrest⟩
    · rintro ⟨k, y, rest, hy, rfl, hrest⟩
      rcases List.mem_cons.mp hy with heq | hy
      · cases heq
        exact .inl ⟨rest, hrest, rfl⟩
      · exact .inr ⟨k, y, rest, hy, rfl, hrest⟩

end

mutual

/-- No scalar is gathered twice. -/
theorem nodup_leafPaths : (j : Json) → j.Normal → (leafPaths j).Nodup
  | .null, _ | .bool _, _ | .num _, _ | .str _, _ => List.nodup_singleton _
  | .arr items, h => nodup_itemPaths items 0 h
  | .obj members, h => nodup_memberPaths members h.1 h.2

theorem nodup_itemPaths : (items : List Json) → ∀ start, Json.NormalItems items →
    (itemPaths start items).Nodup
  | [], _, _ => List.nodup_nil
  | x :: xs, start, h => by
    rw [itemPaths]
    refine List.Nodup.append ((nodup_leafPaths x h.1).map (List.cons_injective))
      (nodup_itemPaths xs (start + 1) h.2) ?_
    intro path hfirst hlater
    obtain ⟨rest, -, rfl⟩ := List.mem_map.mp hfirst
    obtain ⟨i, y, rest', -, heq, -⟩ := (mem_itemPaths xs _ _).mp hlater
    simp only [List.cons.injEq, PathToken.index.injEq] at heq
    omega

theorem nodup_memberPaths : (members : List (String × Json)) →
    (members.Pairwise fun a b => compare a.1 b.1 = .lt) → Json.NormalMembers members →
      (memberPaths members).Nodup
  | [], _, _ => List.nodup_nil
  | (k, x) :: ms, hascending, h => by
    obtain ⟨hk, hms⟩ := List.pairwise_cons.mp hascending
    rw [memberPaths]
    refine List.Nodup.append ((nodup_leafPaths x h.1).map (List.cons_injective))
      (nodup_memberPaths ms hms h.2) ?_
    -- paths under different names cannot meet, and names come once
    intro path hfirst hlater
    obtain ⟨rest, -, rfl⟩ := List.mem_map.mp hfirst
    obtain ⟨l, y, rest', hy, heq, -⟩ := (mem_memberPaths ms _).mp hlater
    simp only [List.cons.injEq, PathToken.name.injEq] at heq
    have hlt := hk (l, y) hy
    rw [heq.1] at hlt
    exact compare_lt_irrefl l hlt

end

/-! ### The text of a path

A pointer puts a slash in front of each token, with the slashes and tildes in a name escaped. The
path to the tree itself would have the empty text, and is given a slash. -/

def tokenText : PathToken → List Char
  | .name k => escapeName k
  | .index i => indexText i

def pathText (path : List PathToken) : List Char := path.flatMap fun t => '/' :: tokenText t

/-- The pointer of a path. -/
def pointerOf (path : List PathToken) : String := pointerText (pathText path)

mutual

theorem leavesFrom_eq (lead : List Char) : (j : Json) →
    leavesFrom lead j = (leafPaths j).map fun path => lead ++ pathText path
  | .null | .bool _ | .num _ | .str _ => by simp [leavesFrom, leafPaths, pathText]
  | .arr items => by rw [leavesFrom, leafPaths, itemLeaves_eq lead 0 items]
  | .obj members => by rw [leavesFrom, leafPaths, memberLeaves_eq lead members]

theorem itemLeaves_eq (lead : List Char) (i : Nat) : (items : List Json) →
    itemLeaves lead i items = (itemPaths i items).map fun path => lead ++ pathText path
  | [] => rfl
  | x :: xs => by
    rw [itemLeaves, itemPaths, leavesFrom_eq _ x, itemLeaves_eq lead (i + 1) xs]
    simp [pathText, tokenText]

theorem memberLeaves_eq (lead : List Char) : (members : List (String × Json)) →
    memberLeaves lead members = (memberPaths members).map fun path => lead ++ pathText path
  | [] => rfl
  | (k, x) :: ms => by
    rw [memberLeaves, memberPaths, leavesFrom_eq _ x, memberLeaves_eq lead ms]
    simp [pathText, tokenText]

end

theorem leafPointers_eq (v : Value) : leafPointers v = (leafPaths v.tree).map pointerOf := by
  rw [leafPointers, leavesFrom_eq, List.map_map]
  rfl

/-! ### Tokens are told by their texts

Escaping is injective, and so are the decimal digits of an index. What can be confused is a name
that is written like an index, such as `"0"`; a token whose text is no such number can only be a
name. -/

theorem areDigits_indexText (i : Nat) : Binary64.AreDigits (indexText i) :=
  Binary64.areDigits_repr i

theorem indexText_injective {i k : Nat} (h : indexText i = indexText k) : i = k := by
  have hvalue := congrArg (fun cs => Nat.ofDigitChars 10 cs 0) h
  exact (Binary64.ofDigitChars_repr i).symm.trans (hvalue.trans (Binary64.ofDigitChars_repr k))

/-- A character of a name in a pointer. -/
def escapedChar (c : Char) : List Char :=
  if c = '~' then ['~', '0'] else if c = '/' then ['~', '1'] else [c]

theorem escapedChar_append_inj {c d : Char} {r s : List Char}
    (h : escapedChar c ++ r = escapedChar d ++ s) : c = d ∧ r = s := by
  -- the digit behind a tilde tells what was escaped
  unfold escapedChar at h
  split_ifs at h <;> grind

theorem escapeName_injective {k l : String} (h : escapeName k = escapeName l) : k = l := by
  have hne : ∀ c r, escapedChar c ++ r ≠ [] := by
    intro c r
    unfold escapedChar
    split_ifs <;> exact List.cons_ne_nil _ _
  have hchars : ∀ cs ds : List Char,
      cs.flatMap escapedChar = ds.flatMap escapedChar → cs = ds := by
    intro cs
    -- texts of characters are cut apart one character after the other
    induction cs with
    | nil =>
      intro ds h
      cases ds with
      | nil => rfl
      | cons d ds => exact absurd h.symm (hne d _)
    | cons c cs ih =>
      intro ds h
      cases ds with
      | nil => exact absurd h (hne c _)
      | cons d ds =>
        obtain ⟨rfl, hrest⟩ := escapedChar_append_inj h
        rw [ih ds hrest]
  exact String.toList_inj.mp (hchars _ _ h)

theorem slash_notMem_tokenText (t : PathToken) : '/' ∉ tokenText t := by
  intro hmem
  cases t with
  | name k =>
    obtain ⟨c, -, hc⟩ := List.mem_flatMap.mp hmem
    split_ifs at hc with htilde hslash
    · simp at hc
    · simp at hc
    · exact hslash (List.mem_singleton.mp hc).symm
  | index i => exact (areDigits_indexText i).ne rfl _ hmem rfl

theorem eq_of_tokenText {t u : PathToken} (h : tokenText t = tokenText u)
    (hname : ∃ c ∈ tokenText t, c.isDigit = false) : t = u := by
  obtain ⟨c, hc, hdigit⟩ := hname
  have hindex : ∀ i, tokenText t ≠ indexText i := by
    intro i heq
    rw [heq] at hc
    rw [areDigits_indexText i c hc] at hdigit
    cases hdigit
  cases t with
  | index i => exact absurd rfl (hindex i)
  | name k =>
    cases u with
    | index i => exact absurd h (hindex i)
    | name l => exact congrArg _ (escapeName_injective h)

/-! ### Pointers are told apart

Since tokens have no slash in their texts, a pointer that is cut at its slashes gives back the texts
of the tokens. Two paths in one tree with the same texts are the same path: where the tree has an
array both tokens are indexes, and where it has an object both are names. -/

variable {j x y : Json} {p q u : List PathToken}

/-- Cut at its slashes, the text of a path gives back the texts of its tokens. The first piece is
empty, since the text begins with a slash. -/
theorem splitOn_pathText (p : List PathToken) :
    splitOn ['/'] (pathText p) = [] :: p.map tokenText := by
  induction p using List.reverseRecOn with
  | nil => rfl
  | append_singleton p t ih =>
    have htext : pathText (p ++ [t]) = pathText p ++ '/' :: tokenText t := by simp [pathText]
    rw [htext, splitOn_append_slash, ih, splitOn_of_no_slash (slash_notMem_tokenText t)]
    simp

/-- The tree itself has the pointer of an empty name. -/
theorem splitOn_pointerOf (p : List PathToken) : splitOn ['/'] (pointerOf p).toList =
    [] :: if p = [] then [[]] else p.map tokenText := by
  cases p with
  | nil => rfl
  | cons t p =>
    have hpointer : (pointerOf (t :: p)).toList = pathText (t :: p) := by
      simp [pointerOf, pointerText, pathText]
    rw [hpointer, splitOn_pathText]
    rfl

/-- Paths that lead from one tree are told by the texts of their tokens: the items of an array have
different indexes, and the members of an object different names. The induction is along the first
path. -/
theorem eq_of_map_tokenText (hp : Leads j p x) (hq : Leads j q y) (hj : j.Normal)
    -- one step for each token: an index or a name is known from its text, and leads to one place
    (h : p.map tokenText = q.map tokenText) : p = q := by
  induction hp generalizing q with
  | here j =>
    cases q with
    | nil => rfl
    | cons t q => cases h
  | @item items i x _ p hx _ ih =>
    cases hq with
    | here => cases h
    | @item _ k z _ q hz hrest =>
      obtain ⟨hindex, htexts⟩ := List.cons.inj h
      obtain rfl := indexText_injective hindex
      obtain rfl : x = z := Option.some.inj (hx.symm.trans hz)
      have hnormal := Json.normalItems_iff.mp hj x (List.mem_of_getElem? hx)
      rw [ih hrest hnormal htexts]
  | @member members k x _ p hx _ ih =>
    cases hq with
    | here => cases h
    | @member _ l z _ q hz hrest =>
      obtain ⟨hname, htexts⟩ := List.cons.inj h
      obtain rfl := escapeName_injective hname
      have hfind : ∀ {w}, (k, w) ∈ members ↔ Dict.findIn? k members = some w :=
        Dict.mem_entries_iff (d := ⟨members, hj.1⟩)
      obtain rfl : x = z := Option.some.inj ((hfind.mp hx).symm.trans (hfind.mp hz))
      have hnormal := Json.normalMembers_iff.mp hj.2 (k, x) hx
      rw [ih hrest hnormal htexts]

/-- Different scalars have different pointers. So a pointer names one place in the tree, although
the text of a token does not say whether it is a name or an index. -/
theorem eq_of_pointerOf (hj : j.Normal) (hp : ScalarAt j p) (hq : ScalarAt j q)
    (h : pointerOf p = pointerOf q) : p = q := by
  by_cases hscalar : IsScalar j
  · rw [(scalarAt_of_isScalar hscalar).mp hp, (scalarAt_of_isScalar hscalar).mp hq]
  · -- a path to a scalar in an array or an object is not empty
    have hne : ∀ {r}, ScalarAt j r → r ≠ [] := by
      rintro r ⟨x, hx, hleaf⟩ rfl
      cases hx
      exact hscalar hleaf
    have htexts := congrArg (fun s : String => splitOn ['/'] s.toList) h
    simp only [splitOn_pointerOf, if_neg (hne hp), if_neg (hne hq), List.cons.injEq,
      true_and] at htexts
    obtain ⟨x, hx, -⟩ := hp
    obtain ⟨y, hy, -⟩ := hq
    exact eq_of_map_tokenText hx hy hj htexts

/-! ### What is read

The registry has one pointer for each setting. Covering is a relation of texts, and it agrees with
one path leading on to another because the names in the registry do not look like indexes. -/

/-- The paths of all settings. Their pointers are the registry, in the same order. -/
def readPaths : List (List PathToken) := [
  [.name "availability", .name "cycle_length"],
  [.name "catalog", .name "course"],
  [.name "catalog", .name "output_file"],
  [.name "catalog", .name "school"],
  [.name "scrub", .name "personal_literals"],
  [.name "scrub", .name "personal_patterns"],
  [.name "snapshots", .name "dir"],
  [.name "snapshots", .name "prefix"]]

theorem map_pointerOf_readPaths : readPaths.map pointerOf = readPointers := by
  decide

/-- No setting is read at the tree itself, whose pointer would cover all others. -/
theorem ne_slash_of_mem_readPointers : ∀ {upper}, upper ∈ readPointers → upper ≠ "/" := by
  decide

/-- None of the names that are read is written like an index. -/
theorem exists_notDigit_of_mem_readPaths :
    ∀ u ∈ readPaths, u ≠ [] ∧ ∀ t ∈ u, ∃ c ∈ tokenText t, c.isDigit = false := by
  have hany : ∀ u ∈ readPaths, u ≠ [] ∧ ∀ t ∈ u, (tokenText t).any (!·.isDigit) = true := by
    decide
  simpa only [List.any_eq_true, Bool.not_eq_true'] using hany

/-- Texts of tokens that begin alike belong to paths that do. -/
theorem isPrefix_of_map_tokenText (hu : ∀ t ∈ u, ∃ c ∈ tokenText t, c.isDigit = false)
    (h : u.map tokenText <+: p.map tokenText) : u <+: p := by
  induction u generalizing p with
  | nil => exact List.nil_prefix
  | cons t u ih =>
    obtain ⟨ht, hu⟩ := List.forall_mem_cons.mp hu
    cases p with
    | nil => simp at h
    | cons s p =>
      obtain ⟨htext, hrest⟩ := List.cons_prefix_cons.mp h
      rw [eq_of_tokenText htext ht]
      exact List.cons_prefix_cons.mpr ⟨rfl, ih hu hrest⟩

/-- The text of a pointer covers another one just where its path leads on to the other path. A text
may be a prefix of another without a slash behind it, as `/catalog/course` is of `/catalog/courses`;
covering asks for the slash. -/
theorem covers_pointerOf_iff (hu : u ∈ readPaths) :
    covers (pointerOf u) (pointerOf p) = true ↔ u <+: p := by
  obtain ⟨hne, hnames⟩ := exists_notDigit_of_mem_readPaths u hu
  have hupper : (pointerOf u).toList = pathText u := by
    cases u with
    | nil => exact absurd rfl hne
    | cons t u => simp [pointerOf, pointerText, pathText]
  have hroot : pointerOf u ≠ "/" := ne_slash_of_mem_readPointers <| by
    rw [← map_pointerOf_readPaths]
    exact List.mem_map_of_mem hu
  rw [covers_iff, or_iff_right hroot]
  constructor
  · intro h
    have htexts : [] :: u.map tokenText <+:
        [] :: if p = [] then [[]] else p.map tokenText := by
      rw [← splitOn_pointerOf, ← splitOn_pathText, ← hupper]
      rcases h with heq | ⟨rest, heq⟩
      · rw [heq]
      · rw [heq, splitOn_append_slash]
        exact List.prefix_append _ _
    have htexts := (List.cons_prefix_cons.mp htexts).2
    split at htexts
    · -- no setting has an empty name
      obtain ⟨t, u, rfl⟩ := List.exists_cons_of_ne_nil hne
      obtain ⟨c, hc, -⟩ := hnames t List.mem_cons_self
      rw [(List.cons_prefix_cons.mp htexts).1] at hc
      cases hc
    · exact isPrefix_of_map_tokenText hnames htexts
  · -- what leads on from the setting goes on after a slash
    rintro ⟨r, rfl⟩
    cases r with
    | nil => exact .inl (by rw [List.append_nil])
    | cons t r =>
      refine .inr ⟨tokenText t ++ pathText r, ?_⟩
      rw [hupper]
      simp [pointerOf, pointerText, pathText]

/-- A path is read if a setting stands on it. -/
def IsReadPath (p : List PathToken) : Prop := ∃ u ∈ readPaths, u <+: p

instance (p : List PathToken) : Decidable (IsReadPath p) :=
  inferInstanceAs (Decidable (∃ u ∈ readPaths, u <+: p))

theorem isRead_pointerOf (p : List PathToken) : isRead (pointerOf p) = decide (IsReadPath p) := by
  rw [Bool.eq_iff_iff, decide_eq_true_iff, isRead, List.any_eq_true, ← map_pointerOf_readPaths]
  constructor
  · rintro ⟨_, hupper, hcovers⟩
    obtain ⟨u, hu, rfl⟩ := List.mem_map.mp hupper
    exact ⟨u, hu, (covers_pointerOf_iff hu).mp hcovers⟩
  · rintro ⟨u, hu, hprefix⟩
    exact ⟨_, List.mem_map_of_mem hu, (covers_pointerOf_iff hu).mpr hprefix⟩

/-! ### What is reported

Three lists are equal: the pointers that are left when those that are read are dropped, the same
sorted and without repeats, and the pointers of the unread scalars. So dropping repeats drops
nothing, and the number in the message is one of scalars. -/

theorem eraseReps_of_nodup {l : List String} (h : l.Nodup) : l.eraseReps = l := by
  have hloop : ∀ (l : List String) (a : String) (kept : List String), (a :: l).Nodup →
      -- without neighbours that are equal nothing is left out
      List.eraseRepsBy.loop (· == ·) a l kept = kept.reverse ++ a :: l := by
    intro l
    induction l with
    | nil =>
      intro a kept _
      simp [List.eraseRepsBy.loop]
    | cons b l ih =>
      intro a kept h
      obtain ⟨ha, hl⟩ := List.nodup_cons.mp h
      have hne : (a == b) = false := by
        rw [beq_eq_false_iff_ne]
        rintro rfl
        exact ha List.mem_cons_self
      rw [List.eraseRepsBy.loop, hne, ih b (a :: kept) hl]
      simp
  cases l with
  | nil => rfl
  | cons a l => exact hloop l a [] h

/-- The paths of the scalars that no setting reads, in the order in which they are gathered. -/
def unreadPaths (v : Value) : List (List PathToken) :=
  (leafPaths v.tree).filter fun p => !decide (IsReadPath p)

theorem mem_unreadPaths_iff {v : Value} :
    p ∈ unreadPaths v ↔ ScalarAt v.tree p ∧ ¬ IsReadPath p := by
  rw [unreadPaths, List.mem_filter, mem_leafPaths, Bool.not_eq_true', decide_eq_false_iff_not]

theorem filter_leafPointers (v : Value) :
    (leafPointers v).filter (fun p => !isRead p) = (unreadPaths v).map pointerOf := by
  rw [leafPointers_eq, List.filter_map, unreadPaths]
  simp only [Function.comp_def, isRead_pointerOf]

/-- The pointers of the scalars that are not read are all different. -/
theorem nodup_unread_pointers (v : Value) : ((unreadPaths v).map pointerOf).Nodup := by
  have hnodup : (unreadPaths v).Nodup := (nodup_leafPaths v.tree v.normal).filter _
  refine hnodup.map_on fun p hp q hq h => ?_
  exact eq_of_pointerOf v.normal (mem_unreadPaths_iff.mp hp).1 (mem_unreadPaths_iff.mp hq).1 h

/-- The pointers are reported as they were sorted: there are none to drop. -/
theorem unusedPointers_eq (v : Value) : unusedPointers v =
    ((unreadPaths v).map pointerOf).mergeSort fun a b => (compare a b).isLE := by
  rw [unusedPointers, filter_leafPointers]
  exact eraseReps_of_nodup ((List.mergeSort_perm ..).nodup_iff.mpr (nodup_unread_pointers v))

theorem unusedPointers_ascending (v : Value) :
    (unusedPointers v).Pairwise fun a b => compare a b = .lt := by
  rw [unusedPointers_eq]
  have hnodup : (((unreadPaths v).map pointerOf).map id).Nodup := by
    rw [List.map_id]
    exact nodup_unread_pointers v
  exact ascending_mergeSort_key id hnodup

/-- The paths that are reported, by their pointers. -/
def unusedPaths (v : Value) : List (List PathToken) :=
  (unreadPaths v).mergeSort fun p q => (compare (pointerOf p) (pointerOf q)).isLE

theorem mem_unusedPaths_iff {v : Value} :
    p ∈ unusedPaths v ↔ ScalarAt v.tree p ∧ ∀ u ∈ readPaths, ¬ u <+: p := by
  rw [unusedPaths, List.mem_mergeSort, mem_unreadPaths_iff, IsReadPath]
  simp only [not_exists, not_and]

theorem unusedPointers_eq_map (v : Value) : unusedPointers v = (unusedPaths v).map pointerOf := by
  rw [unusedPointers_eq, unusedPaths]
  symm
  apply List.map_mergeSort
  intros
  rfl

theorem reportUnused_refuse (v : Value) : reportUnused .refuse v =
    if unusedPaths v = [] then .ok [] else .error ⟨unusedPointers v⟩ := by
  rw [reportUnused, unusedPointers_eq_map]
  by_cases hnone : unusedPaths v = [] <;> simp [hnone]

theorem message_unused (v : Value) : UnusedError.message ⟨unusedPointers v⟩ =
    s!"CONFIG_UNUSED_KEYS: {(unusedPaths v).length} unused config leaf key(s) detected. " ++
      "Remove them or update the consumed registry. First few: " ++
      Text.quotedList (((unusedPaths v).map pointerOf).take shownPointers) := by
  rw [unusedPointers_eq_map, ← List.length_map pointerOf]
  rfl

/-- The report is exact. It lists the pointers of the scalars whose path extends no path of a
setting, strictly ascending; the pointers of different scalars differ, so none is dropped as
a repetition and the number in the message is that of the scalars. A report is refused just if it
lists something and the policy says so. -/
theorem reportUnused_exact (v : Value) : ∃ paths : List (List PathToken),
    paths.Nodup ∧
    (∀ p, p ∈ paths ↔ ScalarAt v.tree p ∧ ∀ u ∈ readPaths, ¬ u <+: p) ∧
    readPaths.map pointerOf = readPointers ∧
    (∀ p q, ScalarAt v.tree p → ScalarAt v.tree q → pointerOf p = pointerOf q → p = q) ∧
    unusedPointers v = paths.map pointerOf ∧
    (unusedPointers v).Pairwise (fun a b => compare a b = .lt) ∧
    ((leafPointers v).filter fun p => !isRead p).Nodup ∧
    reportUnused .tell v = .ok (unusedPointers v) ∧
    (reportUnused .refuse v = if paths = [] then .ok [] else .error ⟨unusedPointers v⟩) ∧
    UnusedError.message ⟨unusedPointers v⟩ =
      s!"CONFIG_UNUSED_KEYS: {paths.length} unused config leaf key(s) detected. " ++
        "Remove them or update the consumed registry. First few: " ++
        Text.quotedList ((paths.map pointerOf).take shownPointers) := by
  have hnodup : (unusedPaths v).Nodup :=
    (List.mergeSort_perm ..).nodup_iff.mpr (nodup_unread_pointers v).of_map
  have hdistinct : ((leafPointers v).filter fun p => !isRead p).Nodup := by
    rw [filter_leafPointers]
    exact nodup_unread_pointers v
  exact ⟨unusedPaths v, hnodup, fun p => mem_unusedPaths_iff, map_pointerOf_readPaths,
    fun p q hp hq => eq_of_pointerOf v.normal hp hq, unusedPointers_eq_map v,
    unusedPointers_ascending v, hdistinct, rfl, reportUnused_refuse v, message_unused v⟩

end Prospectus.Settings
