import Prospectus.Json.Decode
import Prospectus.Proofs.Json.Build

/-! # Decoders

What holds of all decoders that are put together from the readers of `Json.Decode`: on a tree
without faults they only see the tree (`Source.foldMembers_ofJson`, `Source.list_ofJson`), and what
they accept they have read to its end, so that nothing in it was too deep (`ReadsAll`). The text of
a tree is decoded as the tree (`decodeText_indented`).

A decoder works on a source, which is what the reader has met: a tree in which some parts may be
broken or too deep. A fault counts when the decoder comes to it and not before, so a document may be
refused for the field in front of a fault, and the fault is never seen. That makes decoders hard to
reason about in general and easy in two cases, which are the ones that matter: where the text was
written by the encoder, there are no faults, and where a decoder has accepted a source, there were
none that it met. -/

namespace Prospectus.Json

variable {α : Type}

/-! ### Written trees

From texts to sources. What is written of a tree is scanned and built as the tree, and what any
text is built as lies within the depth of the reader. -/

/-- What a decoder makes of the text of a tree is what it makes of the tree, as far as there is
room. Nothing is asked of the decoder. -/
theorem decodeText_indented {j : Json} (h : ∀ n ∈ j.numbers, n.ReadsBack) (d : Decoder α) :
    decodeText d (j.indented ++ "\n") = d (j.within Source.maxDepth) := by
  have hends : Token.EndsNumber ['\n'] := by simp [Token.EndsNumber]
  have hscan : Token.scan (j.indented ++ "\n").toList = j.tokens ++ [] := by
    rw [String.toList_append, indented, String.toList_ofList]
    exact Token.scan_write .indented 0 hends j h
  rw [decodeText, hscan, Source.ofTokens_tokens]
  show (d _).bind _ = _
  cases d (j.within Source.maxDepth) with
  | error e => rfl
  | ok x => rfl

/-- What was decoded from a text came from a tree that is no deeper than a reader goes. -/
theorem exists_source_of_decodeText {d : Decoder α} {text : String} {x : α}
    (h : decodeText d text = .ok x) : ∃ s : Source, s.height ≤ Source.maxDepth ∧ d s = .ok x := by
  obtain ⟨x', hx, h⟩ := bind_eq_ok_iff.mp h
  split at h
  · cases h
    exact ⟨_, Source.height_ofTokens_le _, hx⟩
  · cases h

namespace DecodeError

theorem ofFault_eq_ok_iff {x : Except Fault α} {a : α} : ofFault x = .ok a ↔ x = .ok a := by
  cases x with
  | error f => simp [ofFault]
  | ok b => exact ⟨fun h => congrArg _ (Except.ok.inj h), fun h => congrArg _ (Except.ok.inj h)⟩

end DecodeError

open DecodeError

namespace Source

/-! ### Trees without faults

On a tree without faults, the readers of lists and objects are maps and folds over the items and
the members, and a dictionary that was written member by member is read back by inserting them one
after the other. -/

theorem ofItems_eq_map (items : List Json) : ofItems items = items.map ofJson := by
  induction items with
  | nil => rfl
  | cons x xs ih => rw [ofItems, ih, List.map_cons]

theorem ofMembers_eq_map (members : List (String × Json)) :
    ofMembers members = members.map fun m => (some m.1, ofJson m.2) := by
  induction members with
  | nil => rfl
  | cons m ms ih => rw [ofMembers, ih, List.map_cons]

theorem any_ofJson (j : Json) : (ofJson j).any = .ok j := by
  rw [any, toJson_ofJson, ofFault]

theorem value_ofJson (j : Json) : (ofJson j).value = .ok (.ofJson j) := by
  rw [value, any_ofJson]
  rfl

theorem list_ofJson (d : Decoder α) (items : List Json) :
    (ofJson (.arr items)).list d = items.mapM fun j => d (ofJson j) := by
  rw [ofJson, ofItems_eq_map, list, List.mapM_map]
  show (items.mapM fun j => d (ofJson j)) >>= Except.ok = _
  cases items.mapM fun j => d (ofJson j) with
  | error e => rfl
  | ok xs => rfl

theorem list_within (d : Decoder α) (items : List Json) (room : Nat) :
    ((Json.arr items).within (room + 1)).list d = items.mapM fun j => d (j.within room) := by
  rw [within, withinItems_eq_map, list, List.mapM_map]
  show (items.mapM fun j => d (j.within room)) >>= Except.ok = _
  cases items.mapM fun j => d (j.within room) with
  | error e => rfl
  | ok xs => rfl

theorem foldMembers_ofJson {σ : Type} (start : σ)
    (step : σ → String → Source → Except DecodeError σ) (members : List (String × Json)) :
    (ofJson (.obj members)).foldMembers start step =
      members.foldlM (fun state m => step state m.1 (ofJson m.2)) start := by
  rw [ofJson, ofMembers_eq_map, foldMembers, List.foldlM_map]
  cases members.foldlM (fun state m => step state m.1 (ofJson m.2)) start with
  | error e => rfl
  | ok last => rfl

/-- The entries of a dictionary are read back one after the other. -/
theorem foldlM_insert {κ : Type} [Ord κ] [Std.TransOrd κ] (key : String → κ) (name : κ → String)
    (d : Decoder α) (tree : α → Json) (hkey : ∀ k, key (name k) = k)
    (hd : ∀ x, d (ofJson (tree x)) = .ok x) (es : List (κ × α)) (found : Dict κ α) :
    (es.map fun e => (name e.1, tree e.2)).foldlM
      (fun found m => return found.insert (key m.1) (← d (ofJson m.2))) found =
        Except.ok (ε := DecodeError) (found.insertAll es) := by
  induction es generalizing found with
  | nil => rfl
  | cons e es ih =>
    rw [List.map_cons, List.foldlM_cons, hd, hkey]
    exact ih (found.insert e.1 e.2)

/-! ### What was accepted

The other direction, as inversion lemmas: a list that was accepted is an array that was closed, each
of whose items was accepted; an object that was accepted has names for all members, each of which
the step function took. -/

/-- A list is accepted if it is an array that was closed, and if all of its items are accepted. -/
theorem list_eq_ok_iff {d : Decoder α} {s : Source} {xs : List α} : s.list d = .ok xs ↔
    ∃ items, s = .arr items .closed ∧ items.mapM d = .ok xs := by
  constructor
  · intro h
    -- only an array is a list, and only one that has its closing bracket
    cases s with
    | arr items ending =>
      obtain ⟨ys, hys, h⟩ := bind_eq_ok_iff.mp h
      obtain ⟨u, hend, h⟩ := bind_eq_ok_iff.mp h
      cases h
      cases ending with
      | closed => exact ⟨items, rfl, hys⟩
      | cut r f => cases hend
    | null | bool _ | num _ | str _ | unreadable | broken _ _ | obj _ _ => cases h
  · rintro ⟨items, rfl, h⟩
    rw [list, h]
    rfl

/-- Members with the names that they have in a text. -/
def named (members : List (String × Source)) : List (Option String × Source) :=
  members.map fun m => (some m.1, m.2)

theorem exists_eq_named {members : List (Option String × Source)}
    (h : ∀ m ∈ members, ∃ name, m.1 = some name) : ∃ ms, members = named ms := by
  induction members with
  | nil => exact ⟨[], rfl⟩
  | cons m members ih =>
    obtain ⟨⟨name, hname⟩, hrest⟩ := List.forall_mem_cons.mp h
    obtain ⟨ms, hms⟩ := ih hrest
    refine ⟨(name, m.2) :: ms, ?_⟩
    rw [named, List.map_cons, ← hname, hms]
    rfl

theorem foldMembers_eq_ok_iff {σ : Type} {start last : σ}
    {step : σ → String → Source → Except DecodeError σ} {s : Source} :
    s.foldMembers start step = .ok last ↔ ∃ members, s = .obj (named members) .closed ∧
      members.foldlM (fun state m => step state m.1 m.2) start = .ok last := by
  constructor
  · intro h
    cases s with
    -- an object that was cut off is refused after its members, one with an unreadable name at it
    | obj members ending =>
      obtain ⟨last', hfold, h⟩ := bind_eq_ok_iff.mp h
      obtain ⟨u, hend, h⟩ := bind_eq_ok_iff.mp h
      cases h
      cases ending with
      | cut r f => cases hend
      | closed =>
        -- every member was read by a step, which a member without a name does not allow
        have hnames : ∀ m ∈ members, ∃ name, m.1 = some name := by
          intro m hm
          obtain ⟨state, next, hstep⟩ := exists_step_of_foldlM hfold m hm
          split at hstep
          · next name hname => exact ⟨name, hname⟩
          · cases hstep
        obtain ⟨ms, rfl⟩ := exists_eq_named hnames
        rw [named, List.foldlM_map] at hfold
        exact ⟨ms, rfl, hfold⟩
    | null | bool _ | num _ | str _ | unreadable | broken _ _ | arr _ _ => cases h
  · rintro ⟨members, rfl, h⟩
    rw [foldMembers, named, List.foldlM_map, h]
    rfl

end Source

/-! ### Reading to the end

A value that is kept whole has to be a tree, with nothing in it that is broken or too deep. The
property is one of decoders, and goes from the parts of a decoder to the decoder. -/

/-- What the decoder accepts is a tree without faults. A decoder that passes over a part of its
source does not have this property: what it passes over may be broken. -/
def ReadsAll (d : Decoder α) : Prop := ∀ s x, d s = .ok x → ∃ j, s.toJson = .ok j

namespace ReadsAll

open Source

theorem any : ReadsAll Source.any := fun _ j h => ⟨j, ofFault_eq_ok_iff.mp h⟩

theorem value : ReadsAll Source.value := by
  intro s v h
  obtain ⟨j, hj, -⟩ := map_eq_ok_iff.mp h
  exact any s j hj

theorem text : ReadsAll Source.text := by
  intro s t h
  cases s with
  | str t => exact ⟨.str t, rfl⟩
  | null | bool _ | num _ | unreadable | broken _ _ | arr _ _ | obj _ _ => cases h

theorem optional {d : Decoder α} (h : ReadsAll d) : ReadsAll (Source.optional d) := by
  intro s o ho
  unfold Source.optional at ho
  split at ho
  · exact ⟨.null, rfl⟩
  · obtain ⟨x, hx, -⟩ := map_eq_ok_iff.mp ho
    exact h s x hx

theorem list {d : Decoder α} (h : ReadsAll d) : ReadsAll (Source.list d) := by
  intro s xs hxs
  obtain ⟨items, rfl, hitems⟩ := list_eq_ok_iff.mp hxs
  have hread : ∃ js, toJsonItems items = .ok js := by
    -- so each of them has a tree
    -- the decoder accepted each item
    clear hxs
    induction items generalizing xs with
    | nil => exact ⟨[], rfl⟩
    | cons x items ih =>
      rw [List.mapM_cons] at hitems
      obtain ⟨y, hy, hitems⟩ := bind_eq_ok_iff.mp hitems
      obtain ⟨ys, hys, -⟩ := bind_eq_ok_iff.mp hitems
      obtain ⟨j, hj⟩ := h x y hy
      obtain ⟨js, hjs⟩ := ih ys hys
      exact ⟨j :: js, by rw [toJsonItems, hj, hjs]; rfl⟩
  obtain ⟨js, hjs⟩ := hread
  exact ⟨.arr js, by rw [toJson, hjs]; rfl⟩

theorem foldMembers {σ : Type} {start : σ} {step : σ → String → Source → Except DecodeError σ}
    (h : ∀ state name s next, step state name s = .ok next → ∃ j, s.toJson = .ok j) :
    ReadsAll (Source.foldMembers start step) := by
  intro s last hlast
  obtain ⟨members, rfl, hfold⟩ := foldMembers_eq_ok_iff.mp hlast
  have hread : ∃ js, toJsonMembers (named members) = .ok js := by
    -- and so did every step of the fold
    have hall : ∀ m ∈ members, ∃ j, m.2.toJson = .ok j := by
      intro m hm
      obtain ⟨state, next, hstep⟩ := exists_step_of_foldlM hfold m hm
      exact h state m.1 m.2 next hstep
    clear hfold hlast
    induction members with
    | nil => exact ⟨[], rfl⟩
    | cons m members ih =>
      obtain ⟨⟨j, hj⟩, hrest⟩ := List.forall_mem_cons.mp hall
      obtain ⟨js, hjs⟩ := ih hrest
      exact ⟨(m.1, j) :: js, by
        rw [named, List.map_cons, toJsonMembers, hj]
        rw [named] at hjs
        rw [hjs]
        rfl⟩
  obtain ⟨js, hjs⟩ := hread
  exact ⟨.obj js, by rw [toJson, hjs]; rfl⟩

end ReadsAll

end Prospectus.Json
