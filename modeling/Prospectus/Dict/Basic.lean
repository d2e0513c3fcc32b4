/-!
# Dictionaries with ascending keys

A `Dict κ α` lists its entries with strictly ascending keys, so that equal contents are equal
dictionaries. `find?_alter` and `find?_map` say what each operation does to the look-up, and
`ext_find?` that the look-up determines the dictionary.
-/

namespace Prospectus

open Std

universe u v w

/-- A finite map, listed by strictly ascending key. -/
structure Dict (κ : Type u) (α : Type v) [Ord κ] where
  entries : List (κ × α)
  ascending : entries.Pairwise fun a b => compare a.1 b.1 = .lt
  deriving DecidableEq

namespace Dict

variable {κ : Type u} {α : Type v} {β : Type w} [Ord κ]

/-! ### Operations on the list of entries -/

/-- Put `f` of what stands at `k` there, keeping the order. -/
def alterEntries (k : κ) (f : Option α → α) : List (κ × α) → List (κ × α)
  | [] => [(k, f none)]
  | (j, x) :: rest =>
    match compare k j with
    | .lt => (k, f none) :: (j, x) :: rest
    | .eq => (j, f (some x)) :: rest
    | .gt => (j, x) :: alterEntries k f rest

/-- The value at the first entry whose key compares equal to `k`. -/
def findIn? (k : κ) : List (κ × α) → Option α
  | [] => none
  | (j, x) :: rest => if compare k j = .eq then some x else findIn? k rest

theorem mem_alterEntries {k : κ} {f : Option α → α} {es : List (κ × α)} {p : κ × α}
    (h : p ∈ alterEntries k f es) :
    p = (k, f none) ∨ p ∈ es ∨ ∃ x, (p.1, x) ∈ es ∧ compare k p.1 = .eq ∧ p.2 = f (some x) := by
  induction es with
  | nil => simp_all [alterEntries]
  | cons e es ih =>
    obtain ⟨j, x⟩ := e
    -- the entry is put in front, takes the place of one with its key, or goes further back
    simp only [alterEntries] at h
    split at h
    · rcases List.mem_cons.1 h with rfl | h
      · exact .inl rfl
      · exact .inr (.inl h)
    · next hk =>
      rcases List.mem_cons.1 h with rfl | h
      · exact .inr (.inr ⟨x, by simp, hk, rfl⟩)
      · exact .inr (.inl (by simp [h]))
    · rcases List.mem_cons.1 h with rfl | h
      · simp
      · rcases ih h with h | h | ⟨y, hy, h⟩
        · simp_all
        · simp_all
        · exact .inr (.inr ⟨y, by simp [hy], h⟩)

theorem ascending_alterEntries [TransOrd κ] (k : κ) (f : Option α → α) {es : List (κ × α)}
    (h : es.Pairwise fun a b => compare a.1 b.1 = .lt) :
    (alterEntries k f es).Pairwise fun a b => compare a.1 b.1 = .lt := by
  induction es with
  | nil => simp [alterEntries]
  | cons e es ih =>
    obtain ⟨j, x⟩ := e
    obtain ⟨hj, hes⟩ := List.pairwise_cons.1 h
    simp only [alterEntries]
    -- the three cases of the definition
    split
    · next hk =>
      refine List.pairwise_cons.2 ⟨fun p hp => ?_, h⟩
      rcases List.mem_cons.1 hp with rfl | hp
      · exact hk
      · exact TransCmp.lt_trans hk (hj p hp)
    · exact List.pairwise_cons.2 ⟨hj, hes⟩
    · next hk =>
      refine List.pairwise_cons.2 ⟨fun p hp => ?_, ih hes⟩
      have hjk : compare j k = .lt := OrientedCmp.gt_iff_lt.1 hk
      rcases mem_alterEntries hp with rfl | hp | ⟨y, hy, _⟩
      · exact hjk
      · exact hj p hp
      · exact hj (p.1, y) hy

/-! ### The dictionary operations -/

def empty : Dict κ α := ⟨[], .nil⟩

instance : EmptyCollection (Dict κ α) := ⟨empty⟩

instance : Inhabited (Dict κ α) := ⟨empty⟩

def find? (d : Dict κ α) (k : κ) : Option α := findIn? k d.entries

def contains (d : Dict κ α) (k : κ) : Bool := (d.find? k).isSome

def keys (d : Dict κ α) : List κ := d.entries.map Prod.fst

def values (d : Dict κ α) : List α := d.entries.map Prod.snd

def size (d : Dict κ α) : Nat := d.entries.length

/-- Put `f` of the value at `k`, if there is one, at `k`. -/
def alter [TransOrd κ] (d : Dict κ α) (k : κ) (f : Option α → α) : Dict κ α :=
  ⟨alterEntries k f d.entries, ascending_alterEntries k f d.ascending⟩

/-- Put a value at a key; an older value at that key is lost. -/
def insert [TransOrd κ] (d : Dict κ α) (k : κ) (x : α) : Dict κ α := d.alter k fun _ => x

def filter (d : Dict κ α) (p : κ → α → Bool) : Dict κ α :=
  ⟨d.entries.filter fun e => p e.1 e.2, d.ascending.filter _⟩

/-- Take a key away. -/
def erase (d : Dict κ α) (k : κ) : Dict κ α := d.filter fun j _ => compare k j != .eq

/-- Change every value and keep the keys. -/
def map (d : Dict κ α) (f : α → β) : Dict κ β :=
  ⟨d.entries.map fun e => (e.1, f e.2), by
    simpa [List.pairwise_map] using d.ascending⟩

/-- Put the entries of a list into a dictionary, one after the other. -/
def insertAll [TransOrd κ] (d : Dict κ α) (es : List (κ × α)) : Dict κ α :=
  es.foldl (fun d e => d.insert e.1 e.2) d

/-- The dictionary of a list of entries; of a repeated key the last value stays. -/
def ofList [TransOrd κ] (es : List (κ × α)) : Dict κ α := (∅ : Dict κ α).insertAll es

/-- The union of two dictionaries; at a common key the second one's value stays. -/
def union [TransOrd κ] (d e : Dict κ α) : Dict κ α := d.insertAll e.entries

@[simp] theorem values_map (d : Dict κ α) (f : α → β) : (d.map f).values = d.values.map f := by
  simp [values, map]

/-! ### Look-up after each operation -/

@[simp] theorem find?_empty (k : κ) : (∅ : Dict κ α).find? k = none := rfl

theorem findIn?_eq_none_of_lt [TransOrd κ] {k : κ} {es : List (κ × α)}
    (h : ∀ p ∈ es, compare k p.1 = .lt) : findIn? k es = none := by
  induction es with
  | nil => rfl
  | cons e es ih => simp_all [findIn?]

theorem findIn?_congr [TransOrd κ] {j k : κ} (h : compare j k = .eq) (es : List (κ × α)) :
    findIn? j es = findIn? k es := by
  induction es with
  | nil => rfl
  | cons e es ih => simp only [findIn?, TransCmp.congr_left h, ih]

theorem findIn?_alterEntries [TransOrd κ] (j k : κ) (f : Option α → α) {es : List (κ × α)}
    (h : es.Pairwise fun a b => compare a.1 b.1 = .lt) :
    findIn? j (alterEntries k f es) =
      if compare j k = .eq then some (f (findIn? k es)) else findIn? j es := by
  induction es with
  | nil => simp [alterEntries, findIn?]
  | cons e es ih =>
    obtain ⟨i, x⟩ := e
    obtain ⟨hi, hes⟩ := List.pairwise_cons.1 h
    simp only [alterEntries]
    split
    · next hk =>
      -- `k` goes in front, and nothing behind it has that key
      have hn : findIn? k es = none :=
        findIn?_eq_none_of_lt fun p hp => TransCmp.lt_trans hk (hi p hp)
      by_cases hjk : compare j k = .eq <;> simp [findIn?, hjk, hk, hn]
    · next hk =>
      have hji : compare j k = compare j i := TransCmp.congr_right hk
      by_cases hjk : compare j i = .eq <;> simp [findIn?, hk, hji, hjk]
    · next hk =>
      by_cases hji : compare j i = .eq
      · have hjk : compare j k ≠ .eq := by
          rw [TransCmp.congr_left hji, OrientedCmp.gt_iff_lt.1 hk]
          simp
        simp [findIn?, hji, hjk]
      · simp [findIn?, hji, hk, ih hes]

theorem find?_alter [TransOrd κ] (d : Dict κ α) (j k : κ) (f : Option α → α) :
    (d.alter k f).find? j = if compare j k = .eq then some (f (d.find? k)) else d.find? j :=
  findIn?_alterEntries j k f d.ascending

theorem find?_insert [TransOrd κ] (d : Dict κ α) (j k : κ) (x : α) :
    (d.insert k x).find? j = if compare j k = .eq then some x else d.find? j :=
  find?_alter d j k _

theorem find?_map (d : Dict κ α) (f : α → β) (k : κ) : (d.map f).find? k = (d.find? k).map f := by
  obtain ⟨es, h⟩ := d
  simp only [find?, map]
  clear h
  induction es with
  | nil => rfl
  | cons e es ih => simp only [List.map_cons, findIn?, ih]; split <;> rfl

theorem find?_insertAll [TransOrd κ] (d : Dict κ α) (es : List (κ × α)) (k : κ) :
    (d.insertAll es).find? k = (findIn? k es.reverse).or (d.find? k) := by
  induction es generalizing d with
  | nil => simp [insertAll, findIn?]
  | cons e es ih =>
    -- the last entry of the list is inserted last, so the look-up goes through the reversed list
    have happ : ∀ (l : List (κ × α)) (e : κ × α), findIn? k (l ++ [e]) =
        (findIn? k l).or (if compare k e.1 = .eq then some e.2 else none) := by
      intro l e
      induction l with
      | nil => simp [findIn?]
      | cons a l ih => simp only [List.cons_append, findIn?, ih]; split <;> simp
    have : d.insertAll (e :: es) = (d.insert e.1 e.2).insertAll es := rfl
    rw [this, ih, List.reverse_cons, happ, find?_insert]
    by_cases h : compare k e.1 = .eq <;> cases findIn? k es.reverse <;> simp [h]

theorem find?_congr [TransOrd κ] (d : Dict κ α) {j k : κ} (h : compare j k = .eq) :
    d.find? j = d.find? k :=
  findIn?_congr h d.entries

/-- Changing a dictionary by one item of a list after the other comes, at each key, to what the
items of that key do one after the other. -/
theorem find?_foldl_alter [TransOrd κ] {γ : Type _} (key : γ → κ) (f : γ → Option α → α)
    (items : List γ) (d : Dict κ α) (k : κ) :
    (items.foldl (fun d e => d.alter (key e) (f e)) d).find? k =
      (items.filter fun e => compare k (key e) == .eq).foldl (fun o e => some (f e o))
        (d.find? k) := by
  induction items generalizing d with
  | nil => rfl
  | cons e items ih =>
    rw [List.foldl_cons, ih, find?_alter]
    by_cases h : compare k (key e) = .eq
    · simp [h, find?_congr d h]
    · simp [h]

/-! ### Entries and look-up -/

theorem ext_entries {d e : Dict κ α} (h : d.entries = e.entries) : d = e := by
  cases d
  cases e
  cases h
  rfl

theorem mem_entries_iff [TransOrd κ] [LawfulEqOrd κ] {d : Dict κ α} {k : κ} {x : α} :
    (k, x) ∈ d.entries ↔ d.find? k = some x := by
  obtain ⟨es, h⟩ := d
  simp only [find?]
  induction es with
  | nil => simp [findIn?]
  | cons e es ih =>
    obtain ⟨j, y⟩ := e
    obtain ⟨hj, hes⟩ := List.pairwise_cons.1 h
    -- the key stands at the front or further back, and not in both places
    simp only [findIn?, List.mem_cons, Prod.mk.injEq]
    split
    · next hk =>
      obtain rfl := LawfulEqOrd.eq_of_compare hk
      constructor
      · rintro (⟨-, rfl⟩ | hm)
        · rfl
        · exact absurd (hj _ hm) (by simp [ReflCmp.compare_self])
      · intro hx
        exact .inl ⟨rfl, (Option.some.inj hx).symm⟩
    · next hk =>
      rw [← ih hes]
      constructor
      · rintro (⟨rfl, -⟩ | hm)
        · exact absurd ReflCmp.compare_self hk
        · exact hm
      · exact .inr

theorem mem_values_iff [TransOrd κ] [LawfulEqOrd κ] {d : Dict κ α} {x : α} :
    x ∈ d.values ↔ ∃ k, d.find? k = some x := by
  simp only [values, List.mem_map, Prod.exists, exists_eq_right, mem_entries_iff]

/-- Two dictionaries with the same look-up are the same. -/
theorem ext_find? [TransOrd κ] [LawfulEqOrd κ] {d e : Dict κ α}
    (h : ∀ k, d.find? k = e.find? k) : d = e := by
  have hmem : ∀ p, p ∈ d.entries ↔ p ∈ e.entries := by
    intro ⟨k, x⟩
    rw [mem_entries_iff, mem_entries_iff, h]
  -- two ascending lists of the same entries: the first of each is the least of all
  obtain ⟨ds, hd⟩ := d
  obtain ⟨es, he⟩ := e
  simp only [mk.injEq]
  clear h
  induction ds generalizing es with
  | nil =>
    cases es with
    | nil => rfl
    | cons p es => exact absurd ((hmem p).2 (by simp)) (by simp)
  | cons p ds ih =>
    cases es with
    | nil => exact absurd ((hmem p).1 (by simp)) (by simp)
    | cons q es =>
      obtain ⟨hp, hds⟩ := List.pairwise_cons.1 hd
      obtain ⟨hq, hes⟩ := List.pairwise_cons.1 he
      have irrefl : ∀ a : κ, compare a a ≠ .lt := by simp [ReflCmp.compare_self]
      have hpq : p = q := by
        rcases List.mem_cons.1 ((hmem p).1 (by simp)) with rfl | hpe
        · rfl
        rcases List.mem_cons.1 ((hmem q).2 (by simp)) with rfl | hqd
        · rfl
        exact absurd (TransCmp.lt_trans (hp q hqd) (hq p hpe)) (irrefl _)
      -- the first entries agree, so the lists behind them have the same entries too
      subst hpq
      refine congrArg _ (ih hds es hes fun r => ?_)
      constructor
      · intro hr
        rcases List.mem_cons.1 ((hmem r).1 (List.mem_cons_of_mem _ hr)) with rfl | h
        · exact absurd (hp _ hr) (irrefl _)
        · exact h
      · intro hr
        rcases List.mem_cons.1 ((hmem r).2 (List.mem_cons_of_mem _ hr)) with rfl | h
        · exact absurd (hq _ hr) (irrefl _)
        · exact h

theorem map_insert [TransOrd κ] [LawfulEqOrd κ] (d : Dict κ α) (f : α → β) (k : κ) (x : α) :
    (d.insert k x).map f = (d.map f).insert k (f x) := by
  apply ext_find?
  intro j
  rw [find?_map, find?_insert, find?_insert, find?_map]
  split <;> rfl

theorem mem_of_findIn? [LawfulEqOrd κ] {k : κ} {x : α} {es : List (κ × α)}
    (h : findIn? k es = some x) : (k, x) ∈ es := by
  induction es with
  | nil => cases h
  | cons e es ih =>
    rw [findIn?] at h
    split at h
    · next hk =>
      obtain rfl := LawfulEqOrd.eq_of_compare hk
      cases h
      exact List.mem_cons_self
    · exact List.mem_cons_of_mem _ (ih h)

/-- In an ascending list a key determines its entry. -/
theorem eq_of_compare_eq [TransOrd κ] {es : List (κ × α)}
    (h : es.Pairwise fun a b => compare a.1 b.1 = .lt) {p q : κ × α} (hp : p ∈ es) (hq : q ∈ es)
    (hpq : compare p.1 q.1 = .eq) : p = q := by
  induction es with
  | nil => simp at hp
  | cons e es ih =>
    obtain ⟨he, hes⟩ := List.pairwise_cons.1 h
    rcases List.mem_cons.1 hp with rfl | hp' <;> rcases List.mem_cons.1 hq with rfl | hq'
    · rfl
    · simp [he q hq'] at hpq
    · have := he p hp'
      rw [OrientedCmp.eq_symm hpq] at this
      simp at this
    · exact ih hes hp' hq'

theorem findIn?_eq_some_iff [TransOrd κ] [LawfulEqOrd κ] {k : κ} {x : α} {es : List (κ × α)}
    (h : ∀ p ∈ es, ∀ q ∈ es, compare p.1 q.1 = .eq → p = q) :
    findIn? k es = some x ↔ (k, x) ∈ es := by
  induction es with
  | nil => simp [findIn?]
  | cons e es ih =>
    simp only [findIn?]
    split
    · next hk =>
      obtain rfl := LawfulEqOrd.eq_of_compare hk
      constructor
      · rintro hx
        obtain rfl := Option.some.inj hx
        simp
      · intro hx
        have := h (e.1, x) hx e (by simp) ReflCmp.compare_self
        exact congrArg (fun p : κ × α => some p.2) this.symm
    · next hk =>
      rw [ih fun p hp q hq => h p (by simp [hp]) q (by simp [hq])]
      constructor
      · intro hx
        simp [hx]
      · intro hx
        rcases List.mem_cons.1 hx with rfl | hx
        · exact absurd ReflCmp.compare_self hk
        · exact hx

/-- A dictionary is what its own entries make. -/
theorem ofList_entries [TransOrd κ] [LawfulEqOrd κ] (d : Dict κ α) : ofList d.entries = d := by
  apply ext_find?
  intro k
  rw [ofList, find?_insertAll, find?_empty, Option.or_none]
  have hrev : ∀ x, findIn? k d.entries.reverse = some x ↔ d.find? k = some x := by
    intro x
    rw [findIn?_eq_some_iff, List.mem_reverse, mem_entries_iff]
    intro p hp q hq
    exact eq_of_compare_eq d.ascending (List.mem_reverse.1 hp) (List.mem_reverse.1 hq)
  exact Option.ext fun x => hrev x

theorem find?_ofList_entries [TransOrd κ] [LawfulEqOrd κ] (d : Dict κ α) (k : κ) :
    findIn? k d.entries.reverse = d.find? k := by
  have h := congrArg (fun e : Dict κ α => e.find? k) (ofList_entries d)
  simpa [ofList, find?_insertAll] using h

/-- In a union the second dictionary comes first. -/
theorem find?_union [TransOrd κ] [LawfulEqOrd κ] (d e : Dict κ α) (k : κ) :
    (d.union e).find? k = (e.find? k).or (d.find? k) := by
  rw [union, find?_insertAll, find?_ofList_entries]

/-! ### Keys -/

theorem keys_ascending (d : Dict κ α) : d.keys.Pairwise fun j k => compare j k = .lt :=
  List.pairwise_map.2 d.ascending

theorem mem_keys_iff [TransOrd κ] [LawfulEqOrd κ] {d : Dict κ α} {k : κ} :
    k ∈ d.keys ↔ ∃ x, d.find? k = some x := by
  simp [keys, mem_entries_iff]

theorem mem_keys_insert [TransOrd κ] [LawfulEqOrd κ] {d : Dict κ α} {j k : κ} {x : α} :
    k ∈ (d.insert j x).keys ↔ k = j ∨ k ∈ d.keys := by
  simp only [mem_keys_iff, find?_insert, LawfulEqCmp.compare_eq_iff_eq]
  by_cases h : k = j <;> simp [h]

theorem mem_keys_insertAll [TransOrd κ] [LawfulEqOrd κ] {d : Dict κ α} {es : List (κ × α)} {k : κ} :
    k ∈ (d.insertAll es).keys ↔ k ∈ d.keys ∨ k ∈ es.map Prod.fst := by
  induction es generalizing d with
  | nil => simp [insertAll]
  | cons e es ih =>
    show k ∈ ((d.insert e.1 e.2).insertAll es).keys ↔ _
    rw [ih, mem_keys_insert, List.map_cons, List.mem_cons, or_assoc, or_left_comm]

end Dict

end Prospectus
