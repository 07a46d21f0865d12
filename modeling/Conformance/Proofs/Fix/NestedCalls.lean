import Conformance.Proofs.Fix.FoundCalls
import Conformance.Proofs.Fix.Surroundings

/-!
# Calls in calls

Where a call ends is found by counting parentheses outside quoted texts. As long as there are no comments
that count agrees with what surrounds a place. So a call that begins in code inside another one is closed
before the other one is.
-/

namespace Conformance.Fix

open Text Surrounding

/-- The first parenthesis that is open in a text is closed in it, and with more parentheses open from before
the count goes on behind it with those. -/
def ClosesDeeper (depth : Int) (quote : Option Char) (passed : Nat) (text : List Char) (length : Nat) :
    Prop :=
  ∃ inner rest, text = inner ++ rest ∧ length = passed + inner.length ∧ ∀ more other, 1 ≤ more →
    callEndFrom (depth + more) quote other text = callEndFrom more none (other + inner.length) rest

/-- Characters that only change the state stand before what is closed behind them. -/
theorem ClosesDeeper.step {depth after : Int} {quote mark : Option Char} {passed length : Nat}
    (first : List Char) {text : List Char}
    (closes : ClosesDeeper after mark (passed + first.length) text length)
    (moves : ∀ more other, 1 ≤ more → callEndFrom (depth + more) quote other (first ++ text) =
      callEndFrom (after + more) mark (other + first.length) text) :
    ClosesDeeper depth quote passed (first ++ text) length := by
  obtain ⟨inner, rest, rfl, counted, onward⟩ := closes
  refine ⟨first ++ inner, rest, (List.append_assoc ..).symm, ?_, fun more other outer => ?_⟩
  · rw [List.length_append]
    omega
  · rw [moves more other outer, onward more _ outer, List.length_append, Nat.add_assoc]

/-- What closes with some parentheses open closes with more of them open, and then the count goes on. -/
theorem callEndFrom_deeper {depth : Int} {quote : Option Char} {passed length : Nat} {text : List Char}
    (inside : 1 ≤ depth) (closed : callEndFrom depth quote passed text = some length) :
    ClosesDeeper depth quote passed text length := by
  induction depth, quote, passed, text using callEndFrom.induct with
  | case1 => simp [callEndFrom] at closed
  | case2 => simp [callEndFrom] at closed
  | case3 depth mark passed c rest inductionHypothesis =>
    exact (inductionHypothesis inside (callEndFrom_escaped.symm.trans closed)).step ['\\', c]
      fun _ _ _ => callEndFrom_escaped
  | case4 depth mark passed c rest other inductionHypothesis =>
    exact (inductionHypothesis inside ((callEndFrom_quoted other).symm.trans closed)).step [c]
      fun _ _ _ => callEndFrom_quoted other
  | case5 depth passed c rest quote inductionHypothesis =>
    exact (inductionHypothesis inside ((callEndFrom_quote quote).symm.trans closed)).step [c]
      fun _ _ _ => callEndFrom_quote quote
  | case6 depth passed rest plain inductionHypothesis =>
    refine (inductionHypothesis (by omega) (callEndFrom_opening.symm.trans closed)).step ['('] ?_
    intro more other _
    rw [List.singleton_append, callEndFrom_opening, Int.add_right_comm]
    rfl
  | case7 passed rest plain other =>
    rw [callEndFrom_last] at closed
    refine ⟨[')'], rest, rfl, (Option.some.inj closed).symm, fun more other outer => ?_⟩
    rw [callEndFrom_closing (by omega), show 1 + more - 1 = more by omega]
    rfl
  | case8 depth passed rest deeper plain other inductionHypothesis =>
    refine (inductionHypothesis (by omega) ((callEndFrom_closing deeper).symm.trans closed)).step [')'] ?_
    intro more other outer
    have less : depth + more - 1 = depth - 1 + more := by omega
    rw [List.singleton_append, callEndFrom_closing (by omega), less]
    rfl
  | case9 depth passed c rest plain opening closing inductionHypothesis =>
    rw [Bool.not_eq_true] at plain
    exact (inductionHypothesis inside ((callEndFrom_plain plain opening closing).symm.trans closed)).step [c]
      fun _ _ _ => callEndFrom_plain plain opening closing

/-- Characters that are neither quotes nor parentheses are passed. -/
theorem callEndFrom_name {depth : Int} {passed : Nat} {text : List Char} (rest : List Char)
    (plain : ∀ c ∈ text, isQuote c = false ∧ c ≠ '(' ∧ c ≠ ')') :
    callEndFrom depth none passed (text ++ rest) = callEndFrom depth none (passed + text.length) rest := by
  induction text generalizing passed with
  | nil => rfl
  | cons c text inductionHypothesis =>
    obtain ⟨⟨quote, opening, closing⟩, others⟩ := List.forall_mem_cons.mp plain
    rw [List.cons_append, callEndFrom_plain quote opening closing, inductionHypothesis others,
      List.length_cons, Nat.add_assoc, Nat.add_comm 1]

/-- The count of parentheses knows what surrounds a place outside comments: code, or a text quoted by the
same mark. -/
inductive InStep : Surrounding → Option Char → Prop where
  | code : InStep .code none
  | stroke : InStep .stroke none
  | quoted (mark : Char) : InStep (.quoted mark) (some mark)

/-- In code the count knows of no quoted text. -/
theorem InStep.of_isCode {place : Surrounding} (code : place.isCode = true) : InStep place none := by
  cases place with
  | code => exact .code
  | stroke => exact .stroke
  | _ => cases code

section Step

variable {place : Surrounding} {quote : Option Char} {depth : Int} {passed length : Nat} {c : Char}
  {text rest : List Char}

/-- The next step of the count keeps to what surrounds the place: it takes a first part of the text, and some
parentheses are open behind it. -/
def StepsOn (place : Surrounding) (passed length : Nat) (text rest : List Char) : Prop :=
  ∃ first others after mark, text = first ++ others ∧ first ≠ [] ∧ InStep (place.after first) mark ∧
    1 ≤ after ∧ callEndFrom after mark (passed + first.length) (others ++ rest) = some length

/-- In code the next step takes one character. -/
theorem stepsOn_code (deep : 1 ≤ depth)
    (closed : callEndFrom depth none passed (c :: text ++ rest) = some length)
    (beyond : passed + 1 < length) (quoted : isQuote c = true → place.behind c = .quoted c)
    (plain : isQuote c = false → (place.behind c).isCode = true) :
    StepsOn place passed length (c :: text) rest := by
  rw [List.cons_append] at closed
  cases quote : isQuote c with
  | true =>
    rw [callEndFrom_quote quote] at closed
    refine ⟨[c], text, depth, some c, rfl, List.cons_ne_nil _ _, ?_, deep, closed⟩
    rw [after_cons, after_nil, quoted quote]
    exact .quoted c
  | false =>
    have step : InStep (place.after [c]) none := .of_isCode (plain quote)
    by_cases opening : c = '('
    · subst opening
      rw [callEndFrom_opening] at closed
      exact ⟨['('], text, depth + 1, none, rfl, List.cons_ne_nil _ _, step, by omega, closed⟩
    · by_cases closing : c = ')'
      · subst closing
        by_cases last : depth = 1
        · rw [last, callEndFrom_last, Option.some.injEq] at closed
          omega
        · rw [callEndFrom_closing last] at closed
          exact ⟨[')'], text, depth - 1, none, rfl, List.cons_ne_nil _ _, step, by omega, closed⟩
      · rw [callEndFrom_plain quote opening closing] at closed
        exact ⟨[c], text, depth, none, rfl, List.cons_ne_nil _ _, step, deep, closed⟩

/-- In a text without comments behind which there is code again, the next step of the count keeps to what
surrounds the place, unless it is the last one. -/
theorem InStep.stepsOn (step : InStep place quote) (deep : 1 ≤ depth) (closable : ¬ ['*', '/'] <:+: c :: text)
    (code : (place.after (c :: text)).isCode = true)
    (closed : callEndFrom depth quote passed (c :: text ++ rest) = some length)
    (beyond : passed + 1 < length) : StepsOn place passed length (c :: text) rest := by
  cases step with
  | code =>
    refine stepsOn_code deep closed beyond (fun quote => ?_) fun plain => ?_
    · rw [behind, if_neg (by rintro rfl; cases quote), if_pos quote]
    · rw [behind, plain]
      split <;> rfl
  | stroke =>
    have noLine : c ≠ '/' := by
      rintro rfl
      rw [after_cons, behind, if_pos rfl, lineComment_after] at code
      cases code
    have noBlock : c ≠ '*' := by
      rintro rfl
      rw [after_cons, behind, if_neg (by decide), if_pos rfl] at code
      rcases blockComment_after (mt List.infix_cons closable) with comment | comment <;>
        rw [comment] at code <;> cases code
    refine stepsOn_code deep closed beyond (fun quote => ?_) fun plain => ?_
    · rw [behind, if_neg noLine, if_neg noBlock, if_pos quote]
    · rw [behind, if_neg noLine, if_neg noBlock, plain]
      rfl
  | quoted mark =>
    by_cases escape : c = '\\'
    · subst escape
      cases text with
      | nil => simp [behind, isCode] at code
      | cons d text =>
        refine ⟨['\\', d], text, depth, some mark, rfl, List.cons_ne_nil _ _, ?_, deep, ?_⟩
        · simpa [behind] using InStep.quoted mark
        · rwa [List.cons_append, List.cons_append, callEndFrom_escaped] at closed
    · rw [List.cons_append, callEndFrom_quoted escape] at closed
      refine ⟨[c], text, depth, if c = mark then none else some mark, rfl, List.cons_ne_nil _ _, ?_, deep,
        closed⟩
      rw [after_cons, after_nil, behind, if_neg escape]
      split
      · exact .code
      · exact .quoted mark

/-- If a parenthesis is not closed in a text without comments behind which there is code again, the count goes
on behind the text. -/
theorem InStep.onward (step : InStep place quote) (deep : 1 ≤ depth) (closable : ¬ ['*', '/'] <:+: text)
    (code : (place.after text).isCode = true)
    (closed : callEndFrom depth quote passed (text ++ rest) = some length)
    (beyond : passed + text.length < length) :
    ∃ more, 1 ≤ more ∧ callEndFrom more none (passed + text.length) rest = some length := by
  induction size : text.length using Nat.strong_induction_on generalizing place quote depth passed text with
  | h size inductionHypothesis =>
    subst size
    cases text with
    | nil =>
      cases step with
      | quoted mark => cases code
      | _ => exact ⟨depth, deep, closed⟩
    | cons c text =>
      obtain ⟨first, others, after, mark, whole, filled, step, deep, closed⟩ :=
        step.stepsOn deep closable code closed (by simp at beyond; omega)
      have lengths : (c :: text).length = first.length + others.length := by
        rw [whole, List.length_append]
      have shorter := List.length_pos_iff.mpr filled
      rw [whole, after_append] at code
      rw [whole] at closable
      have onward := inductionHypothesis others.length (by omega) step deep
        (fun within => closable (within.trans (List.suffix_append _ _).isInfix)) code closed (by omega) rfl
      rwa [lengths, ← Nat.add_assoc]

end Step

/-- The name in front of a parenthesis has no quotes and parentheses. -/
theorem plain_name {method : List Char} (known : method ∈ consoleMethods) :
    ∀ c ∈ "console.".toList ++ method, isQuote c = false ∧ c ≠ '(' ∧ c ≠ ')' := by
  have plain : ∀ method ∈ consoleMethods,
      ("console.".toList ++ method).all (fun c => !isQuote c && c != '(' && c != ')') = true := by
    decide +kernel
  intro c member
  simpa [and_assoc] using List.all_eq_true.mp (plain method known) c member

/-- Behind the beginning of a call in code there is code. -/
theorem after_opening {place : Surrounding} (code : place.isCode = true) {method : List Char}
    (known : method ∈ consoleMethods) : place.after ("console.".toList ++ method ++ ['(']) = .code := by
  have plain : ∀ method ∈ consoleMethods,
      Surrounding.code.after ("console.".toList ++ method ++ ['(']) = .code ∧
        stroke.after ("console.".toList ++ method ++ ['(']) = .code := by
    decide +kernel
  cases place with
  | code => exact (plain method known).1
  | stroke => exact (plain method known).2
  | _ => cases code

/-- With parentheses open from before, a call in front of the rest of its line is passed. -/
theorem ClosedCall.passes {call rest : List Char} (closed : ClosedCall call rest) {depth : Int}
    {passed length : Nat} (deep : 1 ≤ depth)
    (ends : callEndFrom depth none passed (call ++ rest) = some length) : passed + call.length ≤ length := by
  obtain ⟨method, known, inner, semicolon, rfl, closes, either⟩ := closed
  have whole : "console.".toList ++ method ++ '(' :: inner ++ semicolon ++ rest =
      "console.".toList ++ method ++ '(' :: (inner ++ (semicolon ++ rest)) := by simp
  rw [whole, callEndFrom_name _ (plain_name known), callEndFrom_opening] at ends
  rw [callEnd?, List.cons_append, callEndFrom_opening] at closes
  obtain ⟨core, others, _, counted, onward⟩ := callEndFrom_deeper (by omega) closes
  rw [show depth + 1 = 0 + 1 + depth by omega, onward depth _ deep] at ends
  obtain ⟨gap, _, _, further, _⟩ := callEndFrom_closes ends
  have short : semicolon.length ≤ 1 := by
    rcases either with rfl | ⟨rfl, _⟩ <;> decide
  simp only [List.length_append, List.length_cons] at counted further ⊢
  omega

/-- Another call begins behind the beginning of a call, not in it. -/
theorem exists_behind_opening {opening rest front more : List Char} (member : opening ∈ openings)
    (whole : opening ++ rest = front ++ 'c' :: more) (filled : front ≠ []) :
    ∃ gap, front = opening ++ gap ∧ rest = gap ++ 'c' :: more := by
  rcases List.append_eq_append_iff.mp whole with ⟨gap, rfl, onward⟩ | ⟨_ | ⟨d, back⟩, split, onward⟩
  · exact ⟨gap, rfl, onward⟩
  · exact ⟨[], by simpa using split.symm, onward.symm⟩
  · obtain ⟨rfl, _⟩ := List.cons.inj onward
    obtain ⟨others, rfl, lacks⟩ := openings_shape opening member
    obtain ⟨c, front, rfl⟩ := List.exists_cons_of_ne_nil filled
    obtain ⟨_, rfl⟩ := List.cons.inj split
    exact absurd (by simp) (lacks 'c' (by decide))

/-- **A call that begins in code inside another one ends inside it**, if the other one begins in code as well
and does not hold the end of a comment. -/
theorem ClosedCall.nested {outer later front call behind : List Char} (outside : ClosedCall outer later)
    (inside : ClosedCall call behind) (whole : outer ++ later = front ++ (call ++ behind))
    (within : front.length < outer.length) (closable : ¬ ['*', '/'] <:+: outer) {place : Surrounding}
    (begins : place.isCode = true) (code : (place.after front).isCode = true) :
    front.length + call.length ≤ outer.length := by
  by_cases here : front = []
  · subst here
    have one := closedCall_iff.mp outside
    rw [whole, List.nil_append, closedCall_iff.mp inside, Option.some.injEq] at one
    rw [List.length_nil, Nat.zero_add, one]
  · obtain ⟨method, known, inner, semicolon, rfl, closes, either⟩ := outside
    obtain ⟨others, rfl⟩ := inside.exists_cons
    have split : "console.".toList ++ (method ++ ['(']) ++ (inner ++ (semicolon ++ later)) =
        front ++ 'c' :: (others ++ behind) := by
      rw [← List.cons_append, ← whole]
      simp
    obtain ⟨gap, rfl, rest⟩ := exists_behind_opening (List.mem_map_of_mem known) split here
    -- The call does not begin at the semicolon, so it begins before the closing parenthesis of the other.
    have shorter : gap.length < inner.length := by
      simp only [List.length_append, List.length_cons, List.length_nil] at within
      rcases either with rfl | ⟨rfl, _⟩
      · rw [List.length_singleton] at within
        refine Nat.lt_of_le_of_ne (by omega) fun same => ?_
        have met := (List.append_inj rest same.symm).2
        exact absurd (List.cons.inj met).1 (by decide)
      · rw [List.length_nil] at within
        omega
    obtain ⟨back, rfl⟩ : ∃ back, inner = gap ++ 'c' :: back := by
      rcases List.append_eq_append_iff.mp rest with ⟨more, rfl, _⟩ | ⟨_ | ⟨d, back⟩, rfl, onward⟩
      · rw [List.length_append] at shorter
        omega
      · simp at shorter
      · obtain ⟨rfl, _⟩ := List.cons.inj onward
        exact ⟨back, rfl⟩
    rw [callEnd?, List.cons_append, callEndFrom_opening, rest] at closes
    rw [after_append, ← List.append_assoc, after_opening begins known] at code
    have free : ¬ ['*', '/'] <:+: gap := fun inGap =>
      closable (inGap.trans ⟨"console.".toList ++ method ++ ['('], 'c' :: back ++ semicolon, by simp⟩)
    have beyond : 0 + 1 + gap.length < ('(' :: (gap ++ 'c' :: back)).length := by
      simp only [List.length_append, List.length_cons]
      omega
    obtain ⟨depth, deep, onward⟩ := InStep.code.onward (by omega) free code closes beyond
    have passed := inside.passes deep onward
    simp only [List.length_append, List.length_cons, List.length_nil] at passed ⊢
    omega

end Conformance.Fix
