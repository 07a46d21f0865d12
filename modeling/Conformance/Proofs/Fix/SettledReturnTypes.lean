import Conformance.Proofs.Fix.AnnotatedHeads
import Mathlib.Logic.Function.Iterate

/-!
# Texts whose functions have their return types

A pass over a text finds functions side by side, and none inside another one that it finds. What is left stands
inside these, or has been found with a body that mentions returning. Where nothing is left a pass changes nothing;
otherwise it takes a colon into some parameter list that a body or an arrow has stood behind, so that the number
of such lists decreases, and as many passes as there are of them leave nothing.
-/

namespace Conformance.Fix

open Text Regex Pattern

variable {text : List Char} {segments : List Segment} {head : Head}

/-- Whether a body or an arrow begins a text, perhaps behind blanks. -/
def beginsBody (text : List Char) : Bool :=
  match text.dropWhile isBlank with
  | '\x7b' :: _ => true
  | '=' :: '>' :: _ => true
  | _ => false

/-- How many parameter lists of a text have a body or an arrow behind them. -/
def openLists : List Char → Nat
  | [] => 0
  | c :: rest => (if c = ')' ∧ beginsBody rest = true then 1 else 0) + openLists rest

/-- Characters other than closing parentheses do not count. -/
theorem openLists_append {front : List Char} (free : ')' ∉ front) (text : List Char) :
    openLists (front ++ text) = openLists text := by
  induction front with
  | nil => rfl
  | cons c front inductionHypothesis =>
    rw [List.mem_cons, not_or] at free
    rw [List.cons_append, openLists, inductionHypothesis free.2, if_neg fun both => free.1 both.1.symm, Nat.zero_add]

/-- What is behind blanks begins a body as it does without them. -/
theorem beginsBody_blanks {gap : List Char} (blank : ∀ c ∈ gap, isBlank c = true) (text : List Char) :
    beginsBody (gap ++ text) = beginsBody text := by
  rw [beginsBody, List.dropWhile_append_of_pos blank, ← beginsBody]

/-- A letter begins no body. -/
theorem beginsBody_letter {c : Char} (letter : c ∈ firstLetters) (text : List Char) :
    beginsBody (c :: text) = false := by
  simp only [firstLetters, List.mem_cons, List.not_mem_nil, or_false] at letter
  rcases letter with rfl | rfl | rfl <;> rfl

/-- A visible character begins a body if it is a brace, or the first one of an arrow. -/
theorem beginsBody_visible {c : Char} (visible : isBlank c = false) (text : List Char) :
    beginsBody (c :: text) = (c == '\x7b' || (c == '=' && text.head? == some '>')) := by
  rw [beginsBody, List.dropWhile_cons_of_neg (by rw [visible]; exact Bool.false_ne_true)]
  split
  · next same =>
    obtain ⟨rfl, _⟩ := List.cons.inj same
    rfl
  · next same =>
    obtain ⟨rfl, rfl⟩ := List.cons.inj same
    rfl
  · next brace arrow =>
    symm
    rw [Bool.or_eq_false_iff, Bool.and_eq_false_iff, beq_eq_false_iff_ne, beq_eq_false_iff_ne]
    refine ⟨fun same => brace _ (congrArg (· :: text) same), ?_⟩
    by_cases sign : c = '='
    · refine .inr ?_
      rw [beq_eq_false_iff_ne]
      intro first
      obtain ⟨rest, rfl⟩ := List.head?_eq_some_iff.mp first
      exact arrow rest (congrArg (· :: '>' :: rest) sign)
    · exact .inl sign

/-- A text with return types begins as it does without them. -/
theorem head?_typedText (segments : List Segment) :
    (typedText segments).head? = (bareText segments).head? := by
  cases segments with
  | nil => rfl
  | cons segment segments =>
    cases segment with
    | plain c => rfl
    | head one =>
      obtain ⟨c, _, ⟨_, bare⟩, _, typed⟩ := exists_first_letter one
      rw [typedText_head, bareText_head, bare, typed]
      rfl

/-- A body begins with return types at some heads as it does without them. -/
theorem beginsBody_typedText (segments : List Segment) :
    beginsBody (typedText segments) = beginsBody (bareText segments) := by
  induction segments with
  | nil => rfl
  | cons segment segments inductionHypothesis =>
    cases segment with
    | plain c =>
      by_cases blank : isBlank c = true
      · have here : ∀ d ∈ [c], isBlank d = true := by simpa using blank
        exact (beginsBody_blanks here _).trans (inductionHypothesis.trans (beginsBody_blanks here _).symm)
      · rw [typedText_plain, bareText_plain, beginsBody_visible (Bool.eq_false_iff.mpr blank),
          beginsBody_visible (Bool.eq_false_iff.mpr blank), head?_typedText]
    | head one =>
      obtain ⟨c, letter, ⟨_, bare⟩, _, typed⟩ := exists_first_letter one
      rw [typedText_head, bareText_head, bare, typed]
      exact (beginsBody_letter letter _).trans (beginsBody_letter letter _).symm

/-- How many heads some parts have. -/
def headCount (segments : List Segment) : Nat := segments.countP fun
  | .plain _ => false
  | .head _ => true

/-- The parameter list of a head has a body or an arrow behind it. -/
theorem openLists_bare {behind : List Char} (body : beginsBody behind = true) :
    openLists (head.bare ++ behind) = openLists behind + 1 := by
  have opening := isMark_close.not_mem_opening (by decide) head
  have list : ')' ∉ head.opening ++ '(' :: head.parameters.val := by
    simp only [List.mem_append, List.mem_cons, not_or]
    exact ⟨opening, by decide, head.parameters.property⟩
  have joint : beginsBody (head.joint ++ behind) = true := by
    cases head with
    | function _ _ _ _ _ gap => exact (beginsBody_blanks gap.property _).trans body
    | arrow _ _ _ _ _ _ first second =>
      rw [Head.joint, List.append_assoc, beginsBody_blanks first.property]
      rfl
  rw [Head.bare, ← List.cons_append, ← List.append_assoc, List.append_assoc, openLists_append list, List.cons_append,
    openLists, if_pos ⟨rfl, joint⟩, openLists_append (isMark_close.not_mem_joint (by decide) (by decide) head),
    Nat.add_comm]

/-- With a return type it has not. -/
theorem openLists_typed (behind : List Char) : openLists (head.typed ++ behind) = openLists behind := by
  have opening := isMark_close.not_mem_spacedOpening (by decide) head
  have list : ')' ∉ head.spacedOpening ++ '(' :: head.parameters.val := by
    simp only [List.mem_append, List.mem_cons, not_or]
    exact ⟨opening, by decide, head.parameters.property⟩
  have colon : beginsBody (':' :: ' ' :: (emptyReturnType head.isAsync ++ head.spacedJoint) ++ behind) = false := rfl
  rw [Head.typed, ← List.cons_append, ← List.append_assoc, List.append_assoc, openLists_append list, List.cons_append,
    openLists, if_neg fun both => Bool.false_ne_true (colon.symm.trans both.2),
    openLists_append (not_mem_type rfl head), Nat.zero_add]

/-- Each return type closes one of the lists. -/
theorem openLists_bareText (bodies : ∀ front head back, segments = front ++ .head head :: back →
      beginsBody (bareText back) = true) :
    openLists (bareText segments) = openLists (typedText segments) + headCount segments := by
  induction segments with
  | nil => rfl
  | cons segment segments inductionHypothesis =>
    have onward := inductionHypothesis fun front head back split =>
      bodies (segment :: front) head back (congrArg (segment :: ·) split)
    cases segment with
    | plain c =>
      rw [bareText_plain, typedText_plain, openLists, openLists, beginsBody_typedText, onward, Nat.add_assoc]
      rfl
    | head one =>
      rw [bareText_head, typedText_head, openLists_bare (bodies [] one segments rfl), openLists_typed, onward,
        headCount, headCount, List.countP_cons_of_pos rfl, Nat.add_assoc]

/-! Passes. -/

variable {pattern : Pattern} {isArrow : Bool} {replacement : Match → List Char}

/-- What a pattern finds in a text mentions returning in its body, so that nothing is replaced; otherwise a
parameter list less has a body or an arrow behind it. -/
theorem replaceAll_finds_cases (finds : FindsFunctions pattern isArrow replacement) (text : List Char) :
    ((∀ found ∈ pattern.allMatches text, mentionsReturn (groupText found 4) = true) ∧
        pattern.replaceAll replacement text = text) ∨
      (∃ found ∈ pattern.allMatches text, mentionsReturn (groupText found 4) = false) ∧
        openLists (pattern.replaceAll replacement text) < openLists text := by
  obtain ⟨stretches, segments, sweep, all, pass, bare, typed⟩ := exists_replaced finds text
  have taken {found : Match} : found ∈ pattern.allMatches text ↔ .taken found ∈ stretches := by
    rw [all, List.mem_filterMap]
    refine ⟨?_, fun member => ⟨_, member, rfl⟩⟩
    rintro ⟨stretch, member, same⟩
    cases stretch with
    | passed c => cases same
    | taken other => exact Option.some.inj same ▸ member
  by_cases mentioned : ∀ found ∈ pattern.allMatches text, mentionsReturn (groupText found 4) = true
  · refine .inl ⟨mentioned, ?_⟩
    have stays : ∀ stretch ∈ stretches, stretch.replaced replacement = stretch.text := by
      intro stretch member
      cases stretch with
      | passed c => rfl
      | taken found =>
        obtain ⟨_, _, there⟩ := sweep.foundAt member
        obtain ⟨head, body, function⟩ := finds there
        rw [Stretch.replaced, function.replaced, ← function.group, mentioned found (taken.mpr member), if_pos rfl]
        rfl
    calc pattern.replaceAll replacement text
      _ = stretches.flatMap (Stretch.replaced replacement) := typed.symm.trans pass.typed
      _ = textOf stretches := List.flatMap_congr stays
      _ = text := pass.bare.symm.trans bare
  · simp only [not_forall, Bool.not_eq_true] at mentioned
    obtain ⟨found, member, quiet⟩ := mentioned
    refine .inr ⟨⟨found, member, quiet⟩, ?_⟩
    obtain ⟨one, typable⟩ := pass.complete found (taken.mp member) quiet
    have counted : openLists (bareText segments) = _ := openLists_bareText fun front head back split => by
      obtain ⟨⟨inner, rest, body⟩, _⟩ := pass.behind front head back split
      rw [body.split]
      rfl
    have positive : 0 < headCount segments := List.countP_pos_iff.mpr ⟨_, typable, rfl⟩
    rw [← typed, ← bare, counted]
    omega

/-- Nothing is left of a text that could get a return type: every function that is found mentions returning in its
body. -/
structure IsTyped (text : List Char) : Prop where
  functions : ∀ found ∈ simpleFunction.allMatches text, mentionsReturn (groupText found 4) = true
  arrows : ∀ found ∈ simpleArrow.allMatches text, mentionsReturn (groupText found 4) = true

/-- A text with nothing left stays as it is, and in any other one a parameter list less has a body or an arrow
behind it. -/
theorem addReturnTypes_cases (text : List Char) : (IsTyped text ∧ addReturnTypes text = text) ∨
    (¬ IsTyped text ∧ openLists (addReturnTypes text) < openLists text) := by
  rw [addReturnTypes]
  rcases replaceAll_finds_cases found_simpleFunction text with ⟨functions, same⟩ | ⟨⟨found, member, quiet⟩, fewer⟩
  · rw [same]
    rcases replaceAll_finds_cases found_simpleArrow text with ⟨arrows, same⟩ | ⟨⟨found, member, quiet⟩, fewer⟩
    · exact .inl ⟨⟨functions, arrows⟩, same⟩
    · refine .inr ⟨fun typed => ?_, fewer⟩
      rw [typed.arrows found member] at quiet
      cases quiet
  · refine .inr ⟨fun typed => ?_, ?_⟩
    · rw [typed.functions found member] at quiet
      cases quiet
    · rcases replaceAll_finds_cases found_simpleArrow (simpleFunction.replaceAll typedFunction text) with
        ⟨_, same⟩ | ⟨_, less⟩
      · rw [same]
        exact fewer
      · exact Nat.lt_trans less fewer

/-- A pass changes nothing exactly if nothing is left. -/
theorem addReturnTypes_eq_iff (text : List Char) : addReturnTypes text = text ↔ IsTyped text := by
  rcases addReturnTypes_cases text with ⟨typed, same⟩ | ⟨untyped, fewer⟩
  · exact iff_of_true same typed
  · refine iff_of_false (fun same => ?_) untyped
    rw [same] at fewer
    exact Nat.lt_irrefl _ fewer

/-- As many passes as there are parameter lists with a body or an arrow behind them leave nothing. The induction is
on the passes. -/
theorem typed_iterate (passes : Nat) (enough : openLists text ≤ passes) : IsTyped (addReturnTypes^[passes] text) := by
  induction passes generalizing text with
  | zero =>
    rcases addReturnTypes_cases text with ⟨typed, _⟩ | ⟨_, fewer⟩
    · exact typed
    · omega
  | succ passes inductionHypothesis =>
    rw [Function.iterate_succ_apply]
    rcases addReturnTypes_cases text with ⟨typed, same⟩ | ⟨_, fewer⟩
    · rw [same]
      have fixed : addReturnTypes^[passes] text = text := Function.iterate_fixed same passes
      rwa [fixed]
    · exact inductionHypothesis (by omega)

variable {violation : Violation} {fixed : List Char}

/-- The fixer makes a text if no function returns a fetched value and something is left. -/
theorem fix_eq_fixed_iff : returnTypeFixer.fix violation text = .fixed fixed ↔
    fetchingFunction.occursIn text = false ∧ ¬ IsTyped text ∧ addReturnTypes text = fixed := by
  rw [returnTypeFixer, ← addReturnTypes_eq_iff]
  dsimp only
  cases fetchingFunction.occursIn text with
  | true => simp
  | false =>
    rw [if_neg Bool.false_ne_true, Outcome.ofChange]
    by_cases same : addReturnTypes text = text
    · simp [same]
    · simp [same]

/-- **When a second fix is idle.** A text that has been made by the fixer is not changed by it once more exactly if
nothing is left in it, or a function in it returns a fetched value. Every fix leaves less parameter lists with a body
or an arrow behind them, so that as many fixes as there are of them leave nothing, and one fix does if there is one. -/
theorem second_fix_idle_iff (applied : returnTypeFixer.fix violation text = .fixed fixed) :
    ((∀ later, returnTypeFixer.fix violation fixed ≠ .fixed later) ↔
        fetchingFunction.occursIn fixed = true ∨ IsTyped fixed) ∧
      (((Changes.start fixed).apply returnTypeFixer violation).text = fixed ↔
        fetchingFunction.occursIn fixed = true ∨ IsTyped fixed) ∧
      openLists fixed < openLists text ∧
        ∀ passes, openLists text ≤ passes → IsTyped (addReturnTypes^[passes] text) := by
  obtain ⟨_, untyped, rfl⟩ := fix_eq_fixed_iff.mp applied
  refine ⟨?_, ?_, ?_, fun passes enough => typed_iterate passes enough⟩
  · simp only [ne_eq, fix_eq_fixed_iff, not_and, Bool.eq_false_iff]
    grind
  · rw [text_apply_returnTypeFixer]
    cases fetchingFunction.occursIn (addReturnTypes text) with
    | true => simp
    | false => simp [addReturnTypes_eq_iff]
  · rcases addReturnTypes_cases text with ⟨typed, _⟩ | ⟨_, fewer⟩
    · exact absurd typed untyped
    · exact fewer

/-- A single function. -/
def singleFunction : List Char := "function a() \x7b b(); \x7d".toList

/-- One fix leaves nothing. -/
theorem second_fix_idle_singleFunction : openLists singleFunction ≤ 1 ∧ ∃ fixed,
    returnTypeFixer.fix missingReturnType singleFunction = .fixed fixed ∧
      ((∀ later, returnTypeFixer.fix missingReturnType fixed ≠ .fixed later) ↔
        fetchingFunction.occursIn fixed = true ∨ IsTyped fixed) ∧ IsTyped (addReturnTypes^[1] singleFunction) := by
  have single : openLists singleFunction ≤ 1 := by decide +kernel
  have applied : returnTypeFixer.fix missingReturnType singleFunction =
      .fixed "function a(): void \x7b b(); \x7d".toList := by decide +kernel
  obtain ⟨idle, _, _, passes⟩ := second_fix_idle_iff applied
  exact ⟨single, _, applied, idle, passes 1 single⟩

/-- A function inside another one. -/
def nestedFunctions : List Char := "function a() \x7b function b() \x7b x(); \x7d y(); \x7d".toList

/-- The first fix finds the outer function, and the second one the inner. -/
theorem nestedFunctions_fixed_twice :
    returnTypeFixer.fix missingReturnType nestedFunctions =
        .fixed "function a(): void \x7b function b() \x7b x(); \x7d y(); \x7d".toList ∧
      returnTypeFixer.fix missingReturnType "function a(): void \x7b function b() \x7b x(); \x7d y(); \x7d".toList =
        .fixed "function a(): void \x7b function b(): void \x7b x(); \x7d y(); \x7d".toList := by
  constructor <;> decide +kernel

end Conformance.Fix
