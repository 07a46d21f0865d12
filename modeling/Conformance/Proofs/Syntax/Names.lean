import Conformance.Proofs.Pattern.Words
import Conformance.Proofs.Syntax.FirstStatement
import Conformance.Proofs.Text.Parts

/-!
# Names behind blanks

A name goes on as far as its characters do. Behind blanks the reader meets the name, or a blank that is none for
it, where no name begins. So a rule that reads a name there has read that one.
-/

namespace Conformance.Syntax

open Syntax.Rule Text

variable {cursor next : Cursor} {name tail gap text : List Char}

/-- A place that is reached from one that counts what is left counts it as well. -/
theorem Cursor.Whole.reaches {start stop : Cursor} (whole : start.Whole) (reached : start.Reaches stop) :
    stop.Whole := by
  obtain ⟨passed, rest, _, _, left⟩ := reached
  have counted : start.left = start.rest.length := whole
  rw [Cursor.Whole, left, counted, rest, List.length_append, Nat.add_sub_cancel_left]

/-! Characters. -/

/-- A blank ends a name. -/
theorem isNameBarrier_of_isBlank {c : Char} (blank : isBlank c = true) : isNameBarrier c = true := by
  have low : ∀ n < 128, blankIntervals.contains n = true → n ≤ 32 := by decide
  unfold isNameBarrier isGap
  by_cases small : c.toNat < 128
  · have within : c.toNat ≤ 32 := low c.toNat small blank
    simp [within]
  · simp [small, blank]

/-- The codes beyond ASCII of what the reader skips. -/
def wideGaps : List Nat :=
  [0xFEFF, 0x2060, 0x200B] ++ blankIntervals.flatMap fun (low, high) => List.range' low (high + 1 - low)

/-- Beyond ASCII the reader skips nothing else. -/
theorem mem_wideGaps {c : Char} (wide : ¬ c.toNat < 128) (gap : isGap c = true) : c.toNat ∈ wideGaps := by
  rw [isGap, if_neg wide] at gap
  simp only [Bool.or_eq_true, beq_iff_eq] at gap
  rcases gap with ((blank | rfl) | rfl) | rfl
  · obtain ⟨⟨low, high⟩, member, above, below⟩ := exists_interval blank
    refine List.mem_append_right _ (List.mem_flatMap.mpr ⟨_, member, ?_⟩)
    dsimp only at above below ⊢
    rw [List.mem_range'_1]
    omega
  all_goals decide

/-- A character of a word is part of a name. -/
theorem isNamePart_of_isWord {c : Char} (letter : isWord c = true) : isNamePart c = true := by
  by_cases small : c.toNat < 128
  · have table : ∀ n : Fin 128, isWord (Char.ofNat n) = true → isNamePart (Char.ofNat n) = true := by
      decide +kernel
    have here := table ⟨c.toNat, small⟩
    rw [Char.ofNat_toNat] at here
    exact here letter
  · have marks : (":;`\"'@#.,|^&<=>+-*/\\%?!~()[]\x7b\x7d".toList.all fun d => d.toNat < 128) = true := by decide
    have gaps : (wideGaps.all fun code => !wordIntervals.contains code) = true := by decide +kernel
    rw [isWord, if_neg small] at letter
    rw [isNamePart, isNameBarrier, Bool.not_eq_true', Bool.or_eq_false_iff, Bool.or_eq_false_iff]
    refine ⟨⟨decide_eq_false (by omega), ?_⟩, ?_⟩
    · rw [← Bool.not_eq_true, List.contains_iff_mem]
      intro member
      exact small (of_decide_eq_true (List.all_eq_true.mp marks c member))
    · rw [← Bool.not_eq_true]
      intro gap
      have apart := List.all_eq_true.mp gaps c.toNat (mem_wideGaps small gap)
      rw [letter] at apart
      cases apart

/-- What is part of a name is neither a blank for the reader nor the beginning of a comment. -/
theorem visible_of_isNamePart {c : Char} (part : isNamePart c = true) : isGap c = false ∧ c ≠ '/' := by
  unfold isNamePart isNameBarrier at part
  constructor
  · cases gap : isGap c with
    | false => rfl
    | true => simp [gap] at part
  · rintro rfl
    revert part
    decide

/-! How far a name goes. -/

/-- No name goes on with the beginning of a text. -/
def EndsName (tail : List Char) : Prop := ∀ c ∈ tail.head?, isNamePart c = false ∧ c ≠ '\\'

/-- A blank ends a name. -/
theorem endsName_blank {c : Char} (blank : isBlank c = true) (rest : List Char) : EndsName (c :: rest) := by
  rintro _ ⟨⟩
  refine ⟨by rw [isNamePart, isNameBarrier_of_isBlank blank, Bool.not_true], ?_⟩
  rintro rfl
  revert blank
  decide

/-- What goes on as a name goes on to the end of the name. -/
theorem nameLength_rest {bound : Nat} (enough : name.length ≤ bound)
    (parts : ∀ c ∈ name, isNamePart c = true) (ends : EndsName tail) :
    nameLength bound false (name ++ tail) = name.length := by
  induction name generalizing bound with
  | nil =>
    cases bound with
    | zero => rfl
    | succ bound =>
      cases tail with
      | nil => rfl
      | cons c rest =>
        obtain ⟨barrier, escape⟩ := ends c rfl
        rw [List.nil_append, nameLength, if_neg escape, if_neg Bool.false_ne_true, barrier,
          if_neg Bool.false_ne_true]
        rfl
  | cons c name inductionHypothesis =>
    obtain ⟨part, others⟩ := List.forall_mem_cons.mp parts
    have escape : c ≠ '\\' := by
      rintro rfl
      revert part
      decide
    cases bound with
    | zero => cases enough
    | succ bound =>
      rw [List.cons_append, nameLength, if_neg escape, if_neg Bool.false_ne_true, part, if_pos rfl,
        inductionHypothesis (Nat.le_of_succ_le_succ enough) others, List.length_cons, Nat.add_comm]

/-- No name begins with a blank. -/
theorem nameAt?_eq_none_of_blank {c : Char} {rest : List Char} (ahead : cursor.rest = c :: rest)
    (blank : isBlank c = true) : nameAt? cursor = none := by
  refine nameAt?_eq_none ahead ?_ ?_
  · rintro rfl
    revert blank
    decide
  · rw [isNameStart, isNameBarrier_of_isBlank blank]
    rfl

/-- A name that is read is ahead of the rest. -/
theorem nameAt?_split {found : List Char} (read : nameAt? cursor = some (found, next)) :
    cursor.rest = found ++ next.rest := by
  unfold nameAt? at read
  split at read
  · cases read
  · cases read
    rw [Cursor.rest_advance, List.take_append_drop]

/-- How a name is read that begins as one, and one that does not. -/
theorem nameAt?_word {c : Char} (whole : cursor.Whole) (ahead : cursor.rest = c :: name ++ tail)
    (parts : ∀ d ∈ c :: name, isNamePart d = true) (ends : EndsName tail) :
    (c.isDigit = true ∧ nameAt? cursor = none) ∨
      (c.isDigit = false ∧ ∃ next, nameAt? cursor = some (c :: name, next) ∧ next.rest = tail) := by
  obtain ⟨part, others⟩ := List.forall_mem_cons.mp parts
  have escape : c ≠ '\\' := by
    rintro rfl
    revert part
    decide
  have counted : cursor.left = (name ++ tail).length + 1 := by
    have same : cursor.left = cursor.rest.length := whole
    rw [same, ahead]
    rfl
  have enough : name.length ≤ (name ++ tail).length := by
    rw [List.length_append]
    exact Nat.le_add_right ..
  have begins : isNameStart c = !c.isDigit := by
    have plain : (!isNameBarrier c) = true := part
    rw [isNameStart, plain, Bool.true_and]
  cases digit : c.isDigit with
  | true =>
    refine .inl ⟨rfl, ?_⟩
    rw [nameAt?, ahead, counted, List.cons_append, nameLength, if_neg escape, if_pos rfl, begins, digit]
    rfl
  | false =>
    have length : nameLength cursor.left true cursor.rest = name.length + 1 := by
      rw [ahead, counted, List.cons_append, nameLength, if_neg escape, if_pos rfl, begins, digit, Bool.not_false,
        if_pos rfl, nameLength_rest enough others ends, Nat.add_comm]
    have read : nameAt? cursor = some (c :: name, cursor.advance (name.length + 1)) := by
      rw [nameAt?, length, ahead]
      exact congrArg (fun taken => some (taken, _)) (@List.take_left _ (c :: name) tail)
    refine .inr ⟨rfl, _, read, ?_⟩
    rw [Cursor.rest_advance, ahead]
    exact @List.drop_left _ (c :: name) tail

/-! Behind blanks. -/

/-- Blanks lead to what is behind them, or to one of them that is none for the reader. -/
theorem exists_skips_blanks (blank : ∀ c ∈ gap, isBlank c = true) {c : Char} (shown : isGap c = false)
    (plain : c ≠ '/') (rest : List Char) :
    ∃ d more, Skips (gap ++ c :: rest) (d :: more) ∧ NoGap (d :: more) ∧
      (d :: more = c :: rest ∨ isBlank d = true) := by
  induction gap with
  | nil => exact ⟨c, rest, .nothing _, ⟨by rintro _ ⟨⟩; exact shown, commentLength?_cons_of_ne plain rest⟩, .inl rfl⟩
  | cons e gap inductionHypothesis =>
    obtain ⟨first, others⟩ := List.forall_mem_cons.mp blank
    cases visible : isGap e with
    | true =>
      obtain ⟨d, more, skips, ends, which⟩ := inductionHypothesis others
      exact ⟨d, more, .blank visible skips, ends, which⟩
    | false =>
      have stroke : e ≠ '/' := by
        rintro rfl
        revert first
        decide
      exact ⟨e, gap ++ c :: rest, .nothing _,
        ⟨by rintro _ ⟨⟩; exact visible, commentLength?_cons_of_ne stroke _⟩, .inr first⟩

/-- The next token behind blanks. -/
theorem exists_nextToken (whole : cursor.Whole) (blank : ∀ c ∈ gap, isBlank c = true) {c : Char}
    (shown : isGap c = false) (plain : c ≠ '/') {rest : List Char} (ahead : cursor.rest = gap ++ c :: rest) :
    ∃ d more, (nextToken cursor).rest = d :: more ∧ (d :: more = c :: rest ∨ isBlank d = true) := by
  obtain ⟨d, more, skips, ends, which⟩ := exists_skips_blanks blank shown plain rest
  exact ⟨d, more, whole.rest_nextToken_iff.mpr ⟨ahead ▸ skips, ends⟩, which⟩

/-- Blanks between two words. -/
structure Spacing (gap : List Char) : Prop where
  filled : gap ≠ []
  blank : ∀ c ∈ gap, isBlank c = true

/-- Blanks end a name. -/
theorem Spacing.endsName {gap : List Char} (spaced : Spacing gap) (rest : List Char) : EndsName (gap ++ rest) := by
  obtain ⟨c, others, rfl⟩ := List.exists_cons_of_ne_nil spaced.filled
  exact endsName_blank (spaced.blank c List.mem_cons_self) _

/-- A name that is not empty, with nothing behind it that goes on with it. -/
structure WholeName (name tail : List Char) : Prop where
  filled : name ≠ []
  parts : ∀ c ∈ name, isNamePart c = true
  ends : EndsName tail

/-- A name is the next token, unless there is a blank that is none for the reader. -/
structure NameAhead (cursor : Cursor) (name tail : List Char) : Prop extends WholeName name tail where
  counted : cursor.Whole
  token : (nextToken cursor).rest = name ++ tail ∨
    ∃ c rest, (nextToken cursor).rest = c :: rest ∧ isBlank c = true

namespace NameAhead

/-- A name behind blanks. -/
theorem ofBlanks {gap : List Char} (whole : WholeName name tail) (counted : cursor.Whole)
    (blank : ∀ c ∈ gap, isBlank c = true) (ahead : cursor.rest = gap ++ (name ++ tail)) :
    NameAhead cursor name tail := by
  refine ⟨whole, counted, ?_⟩
  obtain ⟨c, letters, rfl⟩ := List.exists_cons_of_ne_nil whole.filled
  obtain ⟨shown, plain⟩ := visible_of_isNamePart (whole.parts c List.mem_cons_self)
  obtain ⟨d, more, token, which⟩ := exists_nextToken counted blank shown plain ahead
  rcases which with same | blank
  · rw [same] at token
    exact .inl token
  · exact .inr ⟨d, more, token, blank⟩

/-- No mark stands in front of the name. -/
theorem exists_token (named : NameAhead cursor name tail) :
    ∃ c rest, (nextToken cursor).rest = c :: rest ∧ ∀ d, isNamePart d = false → isBlank d = false → d ≠ c := by
  obtain ⟨c, letters, rfl⟩ := List.exists_cons_of_ne_nil named.filled
  rcases named.token with same | ⟨c, rest, same, blank⟩
  · refine ⟨c, _, same, ?_⟩
    rintro d barrier _ rfl
    rw [named.parts d List.mem_cons_self] at barrier
    cases barrier
  · refine ⟨c, rest, same, ?_⟩
    rintro d _ solid rfl
    rw [blank] at solid
    cases solid

/-- No decorator is ahead. -/
theorem nextIs_eq_false (named : NameAhead cursor name tail) : nextIs cursor "@" = false := by
  obtain ⟨c, rest, token, apart⟩ := named.exists_token
  exact startsWith_of_ne token rfl (apart '@' (by decide) (by decide))

/-- The name that is read is this one. -/
theorem eq (named : NameAhead cursor name tail) {found : List Char}
    (read : nameAt? (nextToken cursor) = some (found, stop)) : found = name ∧ stop.rest = tail := by
  rcases named.token with same | ⟨c, rest, same, blank⟩
  · obtain ⟨c, letters, rfl⟩ := List.exists_cons_of_ne_nil named.filled
    rcases nameAt?_word named.counted.nextToken same named.parts named.ends with ⟨_, none⟩ | ⟨_, next, here, behind⟩
    · rw [none] at read
      cases read
    · rw [here] at read
      cases read
      exact ⟨rfl, behind⟩
  · rw [nameAt?_eq_none_of_blank same blank] at read
    cases read

end NameAhead

end Conformance.Syntax
