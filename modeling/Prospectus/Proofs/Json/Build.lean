import Prospectus.Proofs.Json.Nesting

/-!
# Trees from tokens

Both ways between trees and tokens. The tokens of a tree build the tree as far as the reader can
open it (`Source.ofTokens_tokens`): the induction on the tree says what its tokens do wherever a
value is expected, with any arrays and objects open around it. And whatever tokens build, faults
included, is nowhere deeper than the reader can open (`Source.height_ofTokens_le`): the contents of
each open array and object leave the room that those around it have left.
-/

namespace Prospectus.Json.Source

/-! ### Building a tree from its own tokens

The builder is a machine with a stack of frames, one for each array and object that is open, and
tokens are fed to it one by one. The induction is on the tree, with any frames around it and any
tokens after it: what a subtree does to the machine is to put one value where one was expected. The
lists of items and members need statements of their own, from the point where the first of them
stands in its frame. -/

/-- Go on with the tokens that are left after a step. -/
def resume : Sum Source (Expecting × List Frame) → List Token → Source × List Token
  | .inl s, tokens => (s, tokens)
  | .inr (expecting, frames), tokens => build expecting frames tokens

theorem build_cons (expecting : Expecting) (frames : List Frame) (token : Token)
    (tokens : List Token) : build expecting frames (token :: tokens) =
      resume (tokenStep expecting frames token) tokens := by
  rw [build]
  cases tokenStep expecting frames token with
  | inl s => rfl
  | inr next => rfl

/-- No value begins with the bracket that ends an array, so behind an opening bracket a value is
taken as it is anywhere else. -/
theorem build_firstItem (frames : List Frame) (j : Json) (rest : List Token) :
    build .firstItem frames (j.tokens ++ rest) = build .value frames (j.tokens ++ rest) := by
  match j with
  | .null | .bool _ | .num _ | .str _ => rfl
  | .arr [] | .arr (_ :: _) | .obj [] | .obj ((_, _) :: _) => rfl

/-! An array or object is checked for room when it is closed, with all that stands in it. -/

theorem limited_of_skip {s : Source} (h : s.skip = .ok ()) (below : Nat) :
    limited below s = if below < maxDepth then s else .unreadable := by
  rw [limited, h]

theorem limited_arr (items : List Json) (below : Nat) :
    limited below (.arr (withinItems items (maxDepth - (below + 1))) .closed) =
      (Json.arr items).within (maxDepth - below) := by
  have hskip := skip_within (.arr items) (maxDepth - (below + 1) + 1)
  rw [within] at hskip
  rw [limited_of_skip hskip]
  split_ifs with hbelow
  · rw [show maxDepth - below = maxDepth - (below + 1) + 1 by omega, within]
  · rw [show maxDepth - below = 0 by omega, within]

theorem limited_obj (members : List (String × Json)) (below : Nat) :
    limited below (.obj (withinMembers members (maxDepth - (below + 1))) .closed) =
      (Json.obj members).within (maxDepth - below) := by
  have hskip := skip_within (.obj members) (maxDepth - (below + 1) + 1)
  rw [within] at hskip
  rw [limited_of_skip hskip]
  split_ifs with hbelow
  · rw [show maxDepth - below = maxDepth - (below + 1) + 1 by omega, within]
  · rw [show maxDepth - below = 0 by omega, within]

mutual

/-- Where a value is expected, the tokens of a tree put it there as far as there is room. Room is
counted from the frames around it; a tree that is too deep is still built, with the parts that are
beyond the reader marked as unreadable. -/
theorem build_tokens (frames : List Frame) (rest : List Token) : (j : Json) →
    build .value frames (j.tokens ++ rest) =
      resume (place (j.within (maxDepth - frames.length)) frames) rest
  | .null | .bool _ | .num _ | .str _ => by
    rw [tokens, List.singleton_append, build_cons, within]
    rfl
  | .arr [] => by
    rw [← limited_arr, tokens, List.cons_append, build_cons]
    show build .firstItem (.items [] :: frames) (.closeArray :: rest) = _
    rw [build_cons]
    rfl
  | .obj [] => by
    rw [← limited_obj, tokens, List.cons_append, build_cons]
    show build .firstName (.members [] :: frames) (.closeObject :: rest) = _
    rw [build_cons]
    rfl
  | .arr (x :: xs) => by
    -- the first item goes into the new frame, the others follow it there, and the bracket after
    -- them puts the whole array where the value was expected
    have hx := build_tokens (.items [] :: frames) (itemTokens xs ++ rest) x
    have hxs := build_itemTokens [x.within (maxDepth - (frames.length + 1))] frames rest xs
    rw [List.length_cons, place, resume] at hx
    rw [tokens, List.cons_append, List.append_assoc, build_cons]
    show build .firstItem (.items [] :: frames) _ = _
    rw [build_firstItem, hx, hxs, close, List.reverse_append, List.reverse_reverse,
      ← limited_arr, withinItems]
    rfl
  | .obj ((k, x) :: ms) => by
    -- the same with members: a name, a colon and a value each
    have hx := build_tokens (.member [] (some k) :: frames) (memberTokens ms ++ rest) x
    have hms := build_memberTokens [(some k, x.within (maxDepth - (frames.length + 1)))] frames
      rest ms
    rw [List.length_cons, place, resume] at hx
    rw [tokens, List.cons_append, List.cons_append, List.cons_append, List.append_assoc, build_cons]
    show build .value (.member [] (some k) :: frames) _ = _
    rw [hx, hms, close, List.reverse_append, List.reverse_reverse, ← limited_obj, withinMembers]
    rfl

theorem build_itemTokens (done : List Source) (frames : List Frame) (rest : List Token) :
    (xs : List Json) → build .afterItem (.items done :: frames) (itemTokens xs ++ rest) =
      resume (close (.items
        ((withinItems xs (maxDepth - (frames.length + 1))).reverse ++ done) :: frames)) rest
  | [] => by
    rw [itemTokens, List.singleton_append, build_cons]
    rfl
  | x :: xs => by
    have hx := build_tokens (.items done :: frames) (itemTokens xs ++ rest) x
    have hxs := build_itemTokens (x.within (maxDepth - (frames.length + 1)) :: done) frames rest xs
    rw [List.length_cons, place, resume] at hx
    rw [itemTokens, List.cons_append, List.append_assoc, build_cons]
    show build .value (.items done :: frames) _ = _
    rw [hx, hxs, withinItems, List.reverse_cons, List.append_assoc, List.singleton_append]

theorem build_memberTokens (done : List (Option String × Source)) (frames : List Frame)
    (rest : List Token) : (ms : List (String × Json)) →
      build .afterMember (.members done :: frames) (memberTokens ms ++ rest) =
        resume (close (.members
          ((withinMembers ms (maxDepth - (frames.length + 1))).reverse ++ done) :: frames)) rest
  | [] => by
    rw [memberTokens, List.singleton_append, build_cons]
    rfl
  | (k, x) :: ms => by
    -- a comma, the name and the colon open the frame of one member; the value closes it
    have hx := build_tokens (.member done (some k) :: frames) (memberTokens ms ++ rest) x
    have hms := build_memberTokens ((some k, x.within (maxDepth - (frames.length + 1))) :: done)
      frames rest ms
    rw [List.length_cons, place, resume] at hx
    rw [memberTokens, List.cons_append, List.cons_append, List.cons_append, List.append_assoc,
      build_cons]
    show build .value (.member done (some k) :: frames) _ = _
    rw [hx, hms, withinMembers, List.reverse_cons, List.append_assoc, List.singleton_append]

end

/-- The tokens of a tree build the tree as far as it can be opened. -/
theorem ofTokens_tokens (j : Json) (rest : List Token) :
    ofTokens (j.tokens ++ rest) = (j.within maxDepth, rest) :=
  build_tokens [] rest j

/-! ### The height of what tokens build

The other direction is about any tokens, well-formed or not. An invariant says of the stack that
the contents of the `n`-th open frame leave the room that the `n` frames around it have left, and
each kind of step keeps it: putting a value in its place, closing a frame, or giving up with what
was read so far. Whatever the machine ends with is then no deeper than a reader can open. -/

mutual

/-- How many arrays and objects are open at most around a part of the tree. -/
def height : Source → Nat
  | .arr items _ => itemsHeight items + 1
  | .obj members _ => membersHeight members + 1
  | .null | .bool _ | .num _ | .str _ | .unreadable | .broken _ _ => 0

def itemsHeight : List Source → Nat
  | [] => 0
  | x :: xs => max (height x) (itemsHeight xs)

def membersHeight : List (Option String × Source) → Nat
  | [] => 0
  | (_, x) :: ms => max (height x) (membersHeight ms)

end

theorem itemsHeight_le_iff {items : List Source} {room : Nat} :
    itemsHeight items ≤ room ↔ ∀ x ∈ items, x.height ≤ room := by
  induction items with
  | nil => simp [itemsHeight]
  | cons x xs ih => simp [itemsHeight, ih]

theorem membersHeight_le_iff {members : List (Option String × Source)} {room : Nat} :
    membersHeight members ≤ room ↔ ∀ m ∈ members, m.2.height ≤ room := by
  induction members with
  | nil => simp [membersHeight]
  | cons m ms ih => simp [membersHeight, ih]

theorem height_arr_le_iff {items : List Source} {ending : Ending} {room : Nat} :
    (arr items ending).height ≤ room + 1 ↔ ∀ x ∈ items, x.height ≤ room := by
  rw [height, Nat.add_le_add_iff_right, itemsHeight_le_iff]

theorem height_obj_le_iff {members : List (Option String × Source)} {ending : Ending} {room : Nat} :
    (obj members ending).height ≤ room + 1 ↔ ∀ m ∈ members, m.2.height ≤ room := by
  rw [height, Nat.add_le_add_iff_right, membersHeight_le_iff]

mutual

/-- A tree that is read in full is as high as what was read. -/
theorem height_of_toJson : {s : Source} → {j : Json} → s.toJson = .ok j → j.height = s.height
  | .null, _, h | .bool _, _, h | .num _, _, h | .str _, _, h => by
    cases h
    rfl
  | .unreadable, _, h | .broken _ _, _, h => by cases h
  | .arr items ending, _, h => by
    -- the items are read before the end of the list is looked at, and they alone count
    rw [toJson] at h
    obtain ⟨xs, hxs, h⟩ := bind_eq_ok_iff.mp h
    obtain ⟨-, -, h⟩ := bind_eq_ok_iff.mp h
    cases h
    exact congrArg (· + 1) (itemsHeight_of_toJsonItems hxs)
  | .obj members ending, _, h => by
    rw [toJson] at h
    obtain ⟨ms, hms, h⟩ := bind_eq_ok_iff.mp h
    obtain ⟨-, -, h⟩ := bind_eq_ok_iff.mp h
    cases h
    exact congrArg (· + 1) (membersHeight_of_toJsonMembers hms)

theorem itemsHeight_of_toJsonItems : {items : List Source} → {xs : List Json} →
    toJsonItems items = .ok xs → Json.itemsHeight xs = itemsHeight items
  | [], _, h => by
    cases h
    rfl
  | _ :: _, _, h => by
    rw [toJsonItems] at h
    obtain ⟨y, hy, h⟩ := bind_eq_ok_iff.mp h
    obtain ⟨ys, hys, h⟩ := bind_eq_ok_iff.mp h
    cases h
    rw [Json.itemsHeight, itemsHeight, height_of_toJson hy, itemsHeight_of_toJsonItems hys]

theorem membersHeight_of_toJsonMembers : {members : List (Option String × Source)} →
    {ms : List (String × Json)} → toJsonMembers members = .ok ms →
      Json.membersHeight ms = membersHeight members
  | [], _, h => by
    cases h
    rfl
  | (none, _) :: _, _, h => by cases h
  | (some _, _) :: _, _, h => by
    rw [toJsonMembers] at h
    obtain ⟨y, hy, h⟩ := bind_eq_ok_iff.mp h
    obtain ⟨ys, hys, h⟩ := bind_eq_ok_iff.mp h
    cases h
    rw [Json.membersHeight, membersHeight, height_of_toJson hy, membersHeight_of_toJsonMembers hys]

end

/-- The height of what an open array or object holds so far. -/
def Frame.height : Frame → Nat
  | .items done => itemsHeight done
  | .members done | .member done _ => membersHeight done

/-- The contents of each open array and object leave the room that those around it have left. The
innermost frame stands first in the list, and has as many around it as come after it. -/
def FramesFit : List Frame → Prop
  | [] => True
  | frame :: frames => frame.height ≤ maxDepth - (frames.length + 1) ∧ FramesFit frames

/-- A step leaves open what fits, or ends with a tree that does. This is the invariant of the
machine, and the lemmas below go through its steps. -/
def StepFits : Sum Source (Expecting × List Frame) → Prop
  | .inl s => s.height ≤ maxDepth
  | .inr (_, frames) => FramesFit frames

theorem height_limited_le {s : Source} {below : Nat}
    (h : s.height ≤ maxDepth - (below + 1) + 1) : (limited below s).height ≤ maxDepth - below := by
  rw [limited]
  split
  · omega
  · split
    · exact Nat.zero_le _
    · exact Nat.zero_le _

theorem height_limited_arr_le {items : List Source} {ending : Ending} {below : Nat}
    (h : itemsHeight items ≤ maxDepth - (below + 1)) :
    (limited below (.arr items.reverse ending)).height ≤ maxDepth - below := by
  refine height_limited_le (height_arr_le_iff.mpr fun x hx => ?_)
  exact itemsHeight_le_iff.mp h x (List.mem_reverse.mp hx)

theorem height_limited_obj_le {members : List (Option String × Source)} {ending : Ending}
    {below : Nat} (h : membersHeight members ≤ maxDepth - (below + 1)) :
    (limited below (.obj members.reverse ending)).height ≤ maxDepth - below := by
  refine height_limited_le (height_obj_le_iff.mpr fun m hm => ?_)
  exact membersHeight_le_iff.mp h m (List.mem_reverse.mp hm)

theorem height_abandon_le {part : Source} {frames : List Frame} (hframes : FramesFit frames)
    (hpart : part.height ≤ maxDepth - frames.length) : (abandon part frames).height ≤ maxDepth := by
  induction frames generalizing part with
  | nil => exact hpart
  | cons frame frames ih =>
    obtain ⟨hframe, hframes⟩ := hframes
    rw [List.length_cons] at hpart
    cases frame with
    | items done => exact ih hframes (height_limited_arr_le (Nat.max_le.mpr ⟨hpart, hframe⟩))
    | members done => exact ih hframes (height_limited_obj_le hframe)
    | member done name => exact ih hframes (height_limited_obj_le (Nat.max_le.mpr ⟨hpart, hframe⟩))

theorem height_cut_le {read skip : Fault} {frames : List Frame} (hframes : FramesFit frames) :
    (cut read skip frames).height ≤ maxDepth := by
  cases frames with
  | nil => exact Nat.zero_le _
  | cons frame frames =>
    obtain ⟨hframe, hframes⟩ := hframes
    cases frame with
    | items done => exact height_abandon_le hframes (height_limited_arr_le hframe)
    | members done => exact height_abandon_le hframes (height_limited_obj_le hframe)
    | member done name =>
      refine height_abandon_le hframes (height_limited_obj_le ?_)
      exact Nat.max_le.mpr ⟨Nat.zero_le _, hframe⟩

theorem stepFits_place {value : Source} {frames : List Frame} (hframes : FramesFit frames)
    (hvalue : value.height ≤ maxDepth - frames.length) : StepFits (place value frames) := by
  cases frames with
  | nil => exact hvalue
  | cons frame frames =>
    obtain ⟨hframe, hframes⟩ := hframes
    rw [List.length_cons] at hvalue
    cases frame with
    | items done => exact ⟨Nat.max_le.mpr ⟨hvalue, hframe⟩, hframes⟩
    | members done => exact ⟨hframe, hframes⟩
    | member done name => exact ⟨Nat.max_le.mpr ⟨hvalue, hframe⟩, hframes⟩

theorem stepFits_close {frames : List Frame} (hframes : FramesFit frames) :
    StepFits (close frames) := by
  cases frames with
  | nil => exact Nat.zero_le _
  | cons frame frames =>
    -- the contents become one value of the frame around them
    cases frame with
    | items done => exact stepFits_place hframes.2 (height_limited_arr_le hframes.1)
    | members done => exact stepFits_place hframes.2 (height_limited_obj_le hframes.1)
    | member done name => exact height_abandon_le hframes (Nat.zero_le _)

theorem stepFits_valueStep {frames : List Frame} (hframes : FramesFit frames) (token : Token) :
    StepFits (valueStep frames token) := by
  cases token with
  -- a new frame is empty, so it fits even where it is one too many
  | openArray | openObject => exact ⟨Nat.zero_le _, hframes⟩
  | null | bool _ | num _ | str _ | tooLarge | unpaired =>
    exact stepFits_place hframes (Nat.zero_le _)
  | brokenText _ _ | broken _ _ | closeObject | closeArray | comma | colon =>
    exact height_abandon_le hframes (Nat.zero_le _)

theorem stepFits_nameStep {frames : List Frame} (hframes : FramesFit frames) (token : Token) :
    StepFits (nameStep frames token) := by
  have hcut : ∀ r s, (cut r s frames).height ≤ maxDepth := fun _ _ => height_cut_le hframes
  cases token with
  | str _ | unpaired =>
    cases frames with
    | nil => exact hcut _ _
    | cons frame frames =>
      cases frame with
      | items _ | member _ _ => exact hcut _ _
      | members done => exact hframes
  | openArray | openObject | null | bool _ | num _ | tooLarge | brokenText _ _ | broken _ _
  | closeObject | closeArray | comma | colon => exact hcut _ _

theorem stepFits_tokenStep (expecting : Expecting) {frames : List Frame}
    (hframes : FramesFit frames) (token : Token) : StepFits (tokenStep expecting frames token) := by
  have hcut : ∀ r s, (cut r s frames).height ≤ maxDepth := fun _ _ => height_cut_le hframes
  unfold tokenStep
  -- in the order of the definition: values, items, names and members, each with its fault
  split
  · exact stepFits_valueStep hframes _
  · exact stepFits_close hframes
  · exact stepFits_valueStep hframes _
  · exact hframes
  · exact stepFits_close hframes
  · exact hcut _ _
  · exact stepFits_close hframes
  · exact stepFits_nameStep hframes _
  · exact stepFits_nameStep hframes _
  · exact hframes
  · exact hcut _ _
  · exact hframes
  · exact stepFits_close hframes
  · exact hcut _ _

theorem height_tokensEnd_le (expecting : Expecting) {frames : List Frame}
    (hframes : FramesFit frames) : (tokensEnd expecting frames).height ≤ maxDepth := by
  cases expecting with
  | value => exact height_abandon_le hframes (Nat.zero_le _)
  | firstItem | afterItem | firstName | name | colon | afterMember => exact height_cut_le hframes

theorem height_build_le (expecting : Expecting) {frames : List Frame} (hframes : FramesFit frames)
    (tokens : List Token) : (build expecting frames tokens).1.height ≤ maxDepth := by
  induction tokens generalizing expecting frames with
  | nil => exact height_tokensEnd_le expecting hframes
  | cons token tokens ih =>
    have hstep := stepFits_tokenStep expecting hframes token
    rw [build_cons]
    cases hnext : tokenStep expecting frames token with
    | inl s =>
      rw [hnext] at hstep
      exact hstep
    | inr next =>
      rw [hnext] at hstep
      exact ih next.1 hstep

/-- Tokens build no tree that is deeper than the reader can open. The invariant holds of the empty
stack, and the machine keeps it. -/
theorem height_ofTokens_le (tokens : List Token) : (ofTokens tokens).1.height ≤ maxDepth := by
  have hnone : FramesFit [] := trivial
  exact height_build_le .value hnone tokens

end Prospectus.Json.Source
