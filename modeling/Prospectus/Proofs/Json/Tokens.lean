import Mathlib.Tactic.Common
import Prospectus.Json.Printer
import Prospectus.Json.Token

/-!
# The tokens of written JSON

A tree is written as the tokens that it consists of, so that the scan of its text gives
`Json.tokens`, whatever the layout:

    scan_write : scan (write layout level j ++ rest) = tokens j ++ scan rest

This asks two things. The numbers of the tree have to read back (`Number.ReadsBack`), since a double
is not written and read by one exact rule; and as a number ends only where something else begins,
the rest of the text has to begin with a character that ends it (`EndsNumber`). Texts read back
whatever they hold (`scan_quote`).
-/

namespace Prospectus

/-- The written form of a number is read as just that number. It can be decided for each number, and
is known of all integers. -/
def Number.ReadsBack (n : Number) : Prop := Json.Token.scan n.text.toList = [.num n]

instance (n : Number) : Decidable n.ReadsBack := inferInstanceAs (Decidable (_ = _))

namespace Json

open Token

/-! ### The parts of a tree

The tokens of a tree, in the order of its text, and the numbers among them. Items and members after
the first one begin with a comma, so the lists that follow are defined with it. -/

mutual

def tokens : Json → List Token
  | .null => [.null]
  | .bool b => [.bool b]
  | .num n => [.num n]
  | .str s => [.str s]
  | .arr [] => [.openArray, .closeArray]
  | .arr (x :: xs) => .openArray :: (tokens x ++ itemTokens xs)
  | .obj [] => [.openObject, .closeObject]
  | .obj ((k, x) :: ms) => .openObject :: .str k :: .colon :: (tokens x ++ memberTokens ms)

/-- The tokens of the items after the first one, and of the closing bracket. -/
def itemTokens : List Json → List Token
  | [] => [.closeArray]
  | x :: xs => .comma :: (tokens x ++ itemTokens xs)

/-- The tokens of the members after the first one, and of the closing bracket. -/
def memberTokens : List (String × Json) → List Token
  | [] => [.closeObject]
  | (k, x) :: ms => .comma :: .str k :: .colon :: (tokens x ++ memberTokens ms)

end

mutual

/-- The numbers of a tree in the order of its text. -/
def numbers : Json → List Number
  | .num n => [n]
  | .arr items => itemNumbers items
  | .obj members => memberNumbers members
  | .null | .bool _ | .str _ => []

def itemNumbers : List Json → List Number
  | [] => []
  | x :: xs => numbers x ++ itemNumbers xs

def memberNumbers : List (String × Json) → List Number
  | [] => []
  | (_, x) :: ms => numbers x ++ memberNumbers ms

end

namespace Token

/-! ### Runs of characters

The scanner is a state machine that completes a token now and then. A run of it over some characters
gives the tokens that were completed and the state that is left, and runs are put together end to
end. Once the scanner has stopped it has reported a fault; this is what excludes, further down, that
the characters of a number were scanned by giving up. -/

/-- The tokens that characters complete one after the other, and the state after the last one. -/
def run (state : State) : List Char → List Token × State
  | [] => ([], state)
  | c :: cs => ((step state c).1 ++ (run (step state c).2 cs).1, (run (step state c).2 cs).2)

theorem scanFrom_append (state : State) (cs ds : List Char) :
    scanFrom state (cs ++ ds) = (run state cs).1 ++ scanFrom (run state cs).2 ds := by
  induction cs generalizing state with
  | nil => rfl
  | cons c cs ih => rw [List.cons_append, scanFrom, ih, run, List.append_assoc]

theorem scanFrom_eq_run (state : State) (cs : List Char) :
    scanFrom state cs = (run state cs).1 ++ finish (run state cs).2 := by
  have h := scanFrom_append state cs []
  rwa [List.append_nil] at h

theorem run_append (state : State) (cs ds : List Char) :
    run state (cs ++ ds) =
      ((run state cs).1 ++ (run (run state cs).2 ds).1, (run (run state cs).2 ds).2) := by
  induction cs generalizing state with
  | nil => rfl
  | cons c cs ih => simp only [List.cons_append, run, ih, List.append_assoc]

def IsBroken : Token → Prop
  | .broken .. | .brokenText .. => True
  | _ => False

/-- Where nothing more is read, a fault was reported. Each step of the scanner has this property,
and so has each run that does not begin in the state that reads nothing. -/
def StopsBroken (out : List Token × State) : Prop := out.2 = .stopped → ∃ t ∈ out.1, t.IsBroken

theorem stopsBroken_of_ne {out : List Token × State} (h : out.2 ≠ .stopped) : StopsBroken out :=
  fun hstop => absurd hstop h

theorem stopsBroken_singleton {t : Token} (h : t.IsBroken) : StopsBroken ([t], .stopped) :=
  fun _ => ⟨t, List.mem_singleton_self t, h⟩

theorem StopsBroken.cons {out : List Token × State} (h : StopsBroken out) (t : Token) :
    StopsBroken (t :: out.1, out.2) := by
  intro hstop
  obtain ⟨t', ht', hbroken⟩ := h hstop
  exact ⟨t', List.mem_cons_of_mem _ ht', hbroken⟩

theorem stopsBroken_ite {p : Prop} [Decidable p] {a b : List Token × State} (ha : StopsBroken a)
    (hb : StopsBroken b) : StopsBroken (if p then a else b) := by
  split
  · exact ha
  · exact hb

theorem stopsBroken_startStep (c : Char) : StopsBroken (startStep c) := by
  unfold startStep
  -- the twelve characters that begin a token or stand between, then digits and all else
  iterate 12 refine stopsBroken_ite (stopsBroken_of_ne State.noConfusion) ?_
  split
  · exact stopsBroken_of_ne State.noConfusion
  · exact stopsBroken_of_ne State.noConfusion
  · exact stopsBroken_singleton trivial

theorem stopsBroken_textStep (t : OpenText) (stage : TextStage) (c : Char) :
    StopsBroken (textStep t stage c) := by
  have hgoes : ∀ tokens t stage, StopsBroken (tokens, .text t stage) :=
    fun _ _ _ => stopsBroken_of_ne State.noConfusion
  have hbroken : StopsBroken brokenHere := stopsBroken_singleton trivial
  unfold textStep
  cases stage with
  | plain =>
    -- a text in the middle of nothing special: it goes on, ends, or meets a control character
    refine stopsBroken_ite (hgoes _ _ _) (stopsBroken_ite ?_ ?_)
    · exact stopsBroken_of_ne State.noConfusion
    · exact stopsBroken_ite hbroken (hgoes _ _ _)
  | escape =>
    refine stopsBroken_ite (hgoes _ _ _) ?_
    split
    · exact hgoes _ _ _
    · exact hbroken
  | hex bytes value =>
    -- after the four digits it goes on with what they stand for, which may be no character
    refine stopsBroken_ite (hgoes _ _ _) ?_
    split
    · exact hgoes _ _ _
    · exact hbroken

theorem stopsBroken_step {state : State} (h : state ≠ .stopped) (c : Char) :
    StopsBroken (step state c) := by
  cases state with
  | between => exact stopsBroken_startStep c
  | stopped => exact absurd rfl h
  | text t stage => exact stopsBroken_textStep t stage c
  | word ws token =>
    match ws with
    -- the word is complete, and `c` is the first character of what follows it
    | [] => exact (stopsBroken_startStep c).cons token
    | [w] =>
      simp only [step]
      split_ifs
      · exact stopsBroken_of_ne State.noConfusion
      · exact stopsBroken_singleton trivial
    | w :: w' :: ws =>
      simp only [step]
      split_ifs
      · exact stopsBroken_of_ne State.noConfusion
      · exact stopsBroken_singleton trivial
  | number l stage =>
    -- a literal goes on, is a fault, or is complete and `c` begins what follows it
    simp only [step]
    split
    · exact stopsBroken_of_ne State.noConfusion
    · exact stopsBroken_singleton trivial
    · exact (stopsBroken_startStep c).cons _

theorem stopsBroken_run {state : State} (h : state ≠ .stopped) (cs : List Char) :
    StopsBroken (run state cs) := by
  induction cs generalizing state with
  | nil => exact stopsBroken_of_ne h
  | cons c cs ih =>
    intro hstop
    rw [run]
    by_cases hstep : (step state c).2 = .stopped
    · obtain ⟨t, ht, hbroken⟩ := stopsBroken_step h c hstep
      exact ⟨t, List.mem_append_left _ ht, hbroken⟩
    · obtain ⟨t, ht, hbroken⟩ := ih hstep hstop
      exact ⟨t, List.mem_append_right _ ht, hbroken⟩

/-! ### Numbers

What a number is followed by decides where it ends, so scanning the text of a number in front of a
rest needs to know that the rest does not go on with it. The four characters that may follow a
value in a document all end it, in every state in which a number is complete. -/

/-- What follows ends a number: it is empty, or it begins with one of the characters that follow a
value in a document. Any such character ends a number in every state in which it may end. -/
def EndsNumber (cs : List Char) : Prop := ∀ c ∈ cs.head?, c ∈ [',', ']', '}', '\n']

theorem numberStep_eq_none {l : Literal} {stage : NumberStage} {c : Char}
    (h : stage.complete = true) (hc : c ∈ [',', ']', '}', '\n']) : numberStep l stage c = none := by
  have hdigit : digit? c = none := by
    simp only [List.mem_cons, List.not_mem_nil, or_false] at hc
    rcases hc with rfl | rfl | rfl | rfl <;> decide
  have hletters : c ≠ '.' ∧ c ≠ 'e' ∧ c ≠ 'E' := by
    simp only [List.mem_cons, List.not_mem_nil, or_false] at hc
    rcases hc with rfl | rfl | rfl | rfl <;> decide
  cases stage with
  | sign | point | exponent | exponentSign => cases h
  | zero | whole | fraction | exponentDigits => simp [numberStep, hdigit, hletters]

/-- If the characters scanned so far come to a number, nothing of what follows belongs to it. The
hypothesis speaks of the end of input, where the scanner completes what it has; the conclusion is
that any rest that ends a number has the same effect. -/
theorem scanFrom_of_finish_eq {done : List Token} {state : State} {n : Number} {rest : List Char}
    (hstopped : StopsBroken (done, state)) (hall : done ++ finish state = [.num n])
    (hrest : EndsNumber rest) : scanFrom state rest = finish state ++ scan rest := by
  cases state with
  | between => rfl
  | stopped =>
    -- a scan stops only at a fault, and all that was scanned is a number
    obtain ⟨t, ht, hbroken⟩ := hstopped rfl
    have hnum : t = .num n := by
      rw [finish, List.append_nil] at hall
      exact List.mem_singleton.mp (hall ▸ ht)
    exact absurd hbroken (hnum ▸ id)
  | text t stage =>
    -- what is left open at the end is a fault as well
    have hlast := congrArg List.getLast? hall
    simp [finish] at hlast
  | word ws token =>
    cases ws with
    | nil => cases rest <;> rfl
    | cons w ws =>
      have hlast := congrArg List.getLast? hall
      simp [finish] at hlast
  | number l stage =>
    cases hcomplete : stage.complete with
    | false =>
      have hlast := congrArg List.getLast? hall
      simp [finish, hcomplete] at hlast
    | true =>
      -- the literal could go on, but not with the character that follows
      cases rest with
      | nil => exact (List.append_nil _).symm
      | cons c cs =>
        have hnone := numberStep_eq_none (l := l) hcomplete (hrest c rfl)
        simp only [scan, scanFrom, finish, step, hnone, hcomplete, if_true, List.cons_append,
          List.nil_append]

/-- A number that reads back does so in front of whatever ends it. Reading back is said of the
number alone, with nothing behind it. -/
theorem scan_number {n : Number} (h : n.ReadsBack) {rest : List Char} (hrest : EndsNumber rest) :
    scan (n.text.toList ++ rest) = .num n :: scan rest := by
  have hall : (run .between n.text.toList).1 ++ finish (run .between n.text.toList).2 =
      [.num n] := by
    rw [← h, scan, scanFrom_eq_run]
  have hstopped := stopsBroken_run (State.noConfusion : State.between ≠ .stopped) n.text.toList
  rw [scan, scanFrom_append, scanFrom_of_finish_eq hstopped hall hrest, ← List.append_assoc, hall]
  rfl

/-! ### Texts

Each character of a text is written as itself or as an escape, and the scanner, in the state of an
open text, comes back to that state with the character added. The induction over the text is then
short. Surrogates do not occur, as escapes are written for characters below the first of them. -/

theorem hexValue?_hexDigit :
    ∀ n < 16, hexValue? (hexDigit n) = some n ∧ (hexDigit n).utf8Size = 1 := by
  decide

theorem step_hex {t : OpenText} {bytes value d : Nat} {c : Char} (hd : hexValue? c = some d)
    (hc : c.utf8Size = 1) (h : bytes < 3) :
    step (.text t (.hex bytes (some value))) c =
      ([], .text t (.hex (bytes + 1) (some (16 * value + d)))) := by
  have hmore : bytes + 1 < 4 := by omega
  simp only [step, textStep, hc, hd, hmore, if_true, Option.bind_some, Option.map_some]

theorem step_hex_last {t : OpenText} {value d : Nat} {c : Char} (hd : hexValue? c = some d)
    (hc : c.utf8Size = 1) :
    step (.text t (.hex 3 (some value))) c = ([], .text (t.pushUnit (16 * value + d)) .plain) := by
  have hlast : ¬ 3 + 1 < 4 := by omega
  simp only [step, textStep, hc, hd, hlast, if_false, Option.bind_some, Option.map_some]

/-- A unit that is no surrogate is the character itself. -/
theorem pushUnit_toNat {done : List Char} {c : Char} (h : c.toNat < 0xD800) :
    OpenText.pushUnit ⟨done, false, none⟩ c.toNat = ⟨c :: done, false, none⟩ := by
  have hleading : ¬ (0xD800 ≤ c.toNat ∧ c.toNat ≤ 0xDBFF) := by omega
  have htrailing : ¬ (0xDC00 ≤ c.toNat ∧ c.toNat ≤ 0xDFFF) := by omega
  simp only [OpenText.pushUnit, hleading, htrailing, if_false, OpenText.push, Char.ofNat_toNat]

/-- An escaped character is read as the character, and the scanner is back in the state of an open
text. -/
theorem run_escapeChar (done : List Char) (c : Char) :
    run (.text ⟨done, false, none⟩ .plain) (escapeChar c) =
      ([], .text ⟨c :: done, false, none⟩ .plain) := by
  unfold escapeChar
  -- one case for each short escape, then the control characters, and last what stands for itself
  split_ifs with hquote hslash hline hreturn htab hback hform hcontrol
  · subst hquote; rfl
  · subst hslash; rfl
  · subst hline; rfl
  · subst hreturn; rfl
  · subst htab; rfl
  · subst hback; rfl
  · subst hform; rfl
  · -- the last two of the four digits are those of the character
    obtain ⟨hhigh, hhighSize⟩ := hexValue?_hexDigit (c.toNat / 16) (by omega)
    obtain ⟨hlow, hlowSize⟩ := hexValue?_hexDigit (c.toNat % 16) (by omega)
    have hunit : 16 * (c.toNat / 16) + c.toNat % 16 = c.toNat := Nat.div_add_mod ..
    have hopen : run (.text ⟨done, false, none⟩ .plain) ['\\', 'u', '0', '0'] =
      ([], .text ⟨done, false, none⟩ (.hex 2 (some 0))) := rfl
    have hpush : OpenText.pushUnit ⟨done, false, none⟩ c.toNat = ⟨c :: done, false, none⟩ :=
      pushUnit_toNat (by omega)
    rw [show ['\\', 'u', '0', '0', hexDigit (c.toNat / 16), hexDigit (c.toNat % 16)] =
      ['\\', 'u', '0', '0'] ++ [hexDigit (c.toNat / 16), hexDigit (c.toNat % 16)] from rfl,
      run_append, hopen]
    simp only [run, step_hex hhigh hhighSize (by omega : 2 < 3), step_hex_last hlow hlowSize,
      Nat.mul_zero, Nat.zero_add, hunit, hpush, List.append_nil]
  · simp [run, step, textStep, hslash, hquote, hcontrol, OpenText.giveUp, OpenText.push]

/-- What stands in quotes is read as the text, whatever follows. -/
theorem scanFrom_quoted (done cs rest : List Char) :
    scanFrom (.text ⟨done, false, none⟩ .plain) (cs.flatMap escapeChar ++ '"' :: rest) =
      .str (String.ofList (done.reverse ++ cs)) :: scan rest := by
  -- `done` is what was read already, the last character first
  induction cs generalizing done with
  | nil =>
    rw [List.append_nil]
    rfl
  | cons c cs ih =>
    rw [List.flatMap_cons, List.append_assoc, scanFrom_append, run_escapeChar, ih,
      List.reverse_cons, List.append_assoc]
    rfl

theorem scan_quote (s : String) (rest : List Char) :
    scan (quote s ++ rest) = .str s :: scan rest := by
  have h := scanFrom_quoted [] s.toList rest
  rw [List.reverse_nil, List.nil_append, String.ofList_toList] at h
  rw [← h, quote, List.cons_append, List.append_assoc]
  rfl

/-! ### What stands between

Brackets, commas, colons and blanks do not depend on what is around them. Line breaks and the blanks
behind them are skipped, so the layout does not show in the tokens. -/

theorem scan_openArray (rest : List Char) : scan ('[' :: rest) = .openArray :: scan rest := rfl

theorem scan_openObject (rest : List Char) : scan ('{' :: rest) = .openObject :: scan rest := rfl

theorem scan_comma (rest : List Char) : scan (',' :: rest) = .comma :: scan rest := rfl

theorem scan_blanks (n : Nat) (rest : List Char) :
    scan (List.replicate n ' ' ++ rest) = scan rest := by
  induction n with
  | zero => rfl
  | succ n ih => exact ih

theorem scan_lineBreak (layout : Layout) (level : Nat) (rest : List Char) :
    scan (layout.lineBreak level ++ rest) = scan rest := by
  cases layout with
  | compact => rfl
  | indented => exact scan_blanks (2 * level) rest

theorem scan_colon (layout : Layout) (rest : List Char) :
    scan (layout.colon ++ rest) = .colon :: scan rest := by
  cases layout <;> rfl

theorem endsNumber_lineBreak (layout : Layout) (level : Nat) {c : Char} {rest : List Char}
    (h : EndsNumber (c :: rest)) : EndsNumber (layout.lineBreak level ++ c :: rest) := by
  cases layout with
  | compact => exact h
  | indented =>
    intro d hd
    cases hd
    simp

theorem endsNumber_writeItems (layout : Layout) (level : Nat) (xs : List Json) (rest : List Char) :
    EndsNumber (writeItems layout level xs ++ ']' :: rest) := by
  cases xs with
  | nil => exact endsNumber_lineBreak layout level (by simp [EndsNumber])
  | cons x xs => simp [EndsNumber, writeItems]

theorem endsNumber_writeMembers (layout : Layout) (level : Nat) (ms : List (String × Json))
    (rest : List Char) : EndsNumber (writeMembers layout level ms ++ '}' :: rest) := by
  cases ms with
  | nil => exact endsNumber_lineBreak layout level (by simp [EndsNumber])
  | cons m ms => simp [EndsNumber, writeMembers]

/-! ### Trees

The induction follows the tree. What is written after a number is a comma, a bracket or a line
break, each of which ends it, and that is the only condition to be carried along. -/

mutual

/-- The text of a tree is scanned as the tokens of the tree, and then the rest is scanned. -/
theorem scan_write (layout : Layout) (level : Nat) {rest : List Char} (hrest : EndsNumber rest) :
    (j : Json) → (∀ n ∈ j.numbers, n.ReadsBack) →
      scan (write layout level j ++ rest) = j.tokens ++ scan rest
  | .null, _ => rfl
  | .bool true, _ => rfl
  | .bool false, _ => rfl
  | .num n, h => scan_number (h n (by simp [numbers])) hrest
  | .str s, _ => scan_quote s rest
  | .arr [], _ => rfl
  | .arr (x :: xs), h => by
    simp only [numbers, itemNumbers, List.forall_mem_append] at h
    -- what is written after an item, a comma or the closing bracket, ends a number in it
    have hx := scan_write layout (level + 1) (endsNumber_writeItems layout level xs rest) x h.1
    have hxs := scan_writeItems layout level rest xs h.2
    simp only [write, tokens, List.cons_append, List.append_assoc, List.nil_append]
    rw [scan_openArray, scan_lineBreak, hx, hxs]
  | .obj [], _ => rfl
  | .obj ((k, x) :: ms), h => by
    -- a name is quoted, and its value ends where the next member or the closing bracket begins
    simp only [numbers, memberNumbers, List.forall_mem_append] at h
    have hx := scan_write layout (level + 1) (endsNumber_writeMembers layout level ms rest) x h.1
    have hms := scan_writeMembers layout level rest ms h.2
    simp only [write, tokens, List.cons_append, List.append_assoc, List.nil_append]
    rw [scan_openObject, scan_lineBreak, scan_quote, scan_colon, hx, hms]

theorem scan_writeItems (layout : Layout) (level : Nat) (rest : List Char) :
    (xs : List Json) → (∀ n ∈ itemNumbers xs, n.ReadsBack) →
      scan (writeItems layout level xs ++ ']' :: rest) = itemTokens xs ++ scan rest
  | [], _ => scan_lineBreak layout level (']' :: rest)
  | x :: xs, h => by
    simp only [itemNumbers, List.forall_mem_append] at h
    have hx := scan_write layout (level + 1) (endsNumber_writeItems layout level xs rest) x h.1
    have hxs := scan_writeItems layout level rest xs h.2
    simp only [writeItems, itemTokens, List.cons_append, List.append_assoc]
    rw [scan_comma, scan_lineBreak, hx, hxs]

theorem scan_writeMembers (layout : Layout) (level : Nat) (rest : List Char) :
    (ms : List (String × Json)) → (∀ n ∈ memberNumbers ms, n.ReadsBack) →
      scan (writeMembers layout level ms ++ '}' :: rest) = memberTokens ms ++ scan rest
  | [], _ => scan_lineBreak layout level ('}' :: rest)
  | (k, x) :: ms, h => by
    simp only [memberNumbers, List.forall_mem_append] at h
    have hx := scan_write layout (level + 1) (endsNumber_writeMembers layout level ms rest) x h.1
    have hms := scan_writeMembers layout level rest ms h.2
    simp only [writeMembers, memberTokens, List.cons_append, List.append_assoc]
    rw [scan_comma, scan_lineBreak, scan_quote, scan_colon, hx, hms]

end

end Token

end Json

end Prospectus
