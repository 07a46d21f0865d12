import Conformance.Proofs.Fix.AnnotatedHeads
import Conformance.Proofs.Fix.InsertedMarks
import Conformance.Proofs.Fix.OwnReturns

/-!
# Marks of return types

Apart from its blanks a text with return types is the text itself with marks inserted, each between a closing
parenthesis and a brace or an arrow; and blanks change in the heads that get return types only. The mark is that
of an asynchronous function exactly if the letters of that word stand in front of the head with blanks behind
them.

What is asynchronous by the rules of the language is said beside it: the word is a whole one outside strings and
comments, blanks and comments on the same line may stand behind it, and it belongs to the function whose
parameters close at the parenthesis.
-/

namespace Conformance.Fix

open Text

variable {segments : List Segment} {head : Head} {text first second : List Char}

/-- The characters of a text that are no blanks. -/
def visible (text : List Char) : List Char := text.filter fun c => !isBlank c

@[simp] theorem visible_nil : visible [] = [] := rfl

@[simp] theorem visible_append : visible (first ++ second) = visible first ++ visible second :=
  List.filter_append ..

theorem visible_cons (c : Char) (text : List Char) : visible (c :: text) = visible [c] ++ visible text := by
  rw [← visible_append, List.singleton_append]

@[simp] theorem visible_space (text : List Char) : visible (' ' :: text) = visible text := rfl

/-- A mark is visible. -/
theorem visible_mark {c : Char} (filled : isBlank c = false) : visible (c :: text) = c :: visible text :=
  List.filter_cons_of_pos (by rw [filled]; rfl)

/-- Blanks are not visible. -/
theorem visible_blanks (blank : ∀ c ∈ text, isBlank c = true) : visible text = [] := by
  rw [visible, List.filter_eq_nil_iff]
  intro c member
  rw [blank c member]
  exact Bool.false_ne_true

/-- The mark of a return type. -/
def typeMark (async : Bool) : List Char := ':' :: emptyReturnType async

/-- What is visible of a part, with the mark of its return type. -/
def Segment.shown : Segment → List Part
  | .plain c => (visible [c]).map .own
  | .head one => (visible one.opening ++ '(' :: (visible one.parameters.val ++ [')'])).map .own ++
      .mark (typeMark one.isAsync) :: (visible one.joint).map .own

/-- What is visible of some parts, with the marks of their return types. -/
def shown (segments : List Segment) : List Part := segments.flatMap Segment.shown

@[simp] theorem shown_nil : shown [] = [] := rfl

@[simp] theorem shown_cons (segment : Segment) (segments : List Segment) :
    shown (segment :: segments) = segment.shown ++ shown segments := rfl

@[simp] theorem shown_append (first second : List Segment) : shown (first ++ second) = shown first ++ shown second :=
  List.flatMap_append

/-- The same is visible of an opening with single blanks. -/
theorem visible_spacedOpening (head : Head) : visible head.spacedOpening = visible head.opening := by
  cases head with
  | function async first name second =>
    rw [Head.spacedOpening_function, Head.opening_function]
    simp only [visible_append, visible_space, visible_blanks first.property.2, visible_blanks second.property,
      List.nil_append, List.append_nil]
  | arrow first name second third async =>
    have sign {text : List Char} : visible ('=' :: text) = '=' :: visible text := visible_mark (by decide)
    rw [Head.spacedOpening_arrow, Head.opening_arrow]
    simp only [visible_append, visible_space, sign, visible_blanks first.property.2,
      visible_blanks second.property, visible_blanks third.property, List.nil_append]

/-- What is visible between parameters and body. -/
def Head.sign (head : Head) : List Char := if head.isArrow then ['=', '>'] else []

theorem visible_joint (head : Head) : visible head.joint = head.sign := by
  cases head with
  | function _ _ _ _ _ gap => exact visible_blanks gap.property
  | arrow _ _ _ _ _ _ first second =>
    rw [Head.joint, visible_append, visible_blanks first.property, visible_mark (by decide),
      visible_mark (by decide), visible_blanks second.property]
    rfl

theorem visible_spacedJoint (head : Head) : visible head.spacedJoint = head.sign := by
  cases head <;> rfl

/-- A return type is visible without the blank in front of it. -/
theorem visible_type (async : Bool) : visible (':' :: ' ' :: emptyReturnType async) = typeMark async := by
  cases async <;> decide +kernel

/-- What is visible of a head. -/
theorem visible_bare (head : Head) :
    visible head.bare = visible head.opening ++ '(' :: (visible head.parameters.val ++ ')' :: head.sign) := by
  rw [Head.bare, visible_append, visible_mark (by decide), visible_append, visible_mark (by decide), visible_joint]

/-- What is visible of a head with its return type. -/
theorem visible_typed (head : Head) : visible head.typed = visible head.opening ++
    '(' :: (visible head.parameters.val ++ ')' :: (typeMark head.isAsync ++ head.sign)) := by
  rw [Head.typed, visible_append, visible_spacedOpening, visible_mark (by decide), visible_append,
    visible_mark (by decide), ← visible_type, ← visible_spacedJoint, ← visible_append, List.cons_append,
    List.cons_append]

/-- Without the marks the text itself is shown. -/
theorem unmarked_shown (segments : List Segment) : unmarked (shown segments) = visible (bareText segments) := by
  induction segments with
  | nil => rfl
  | cons segment segments inductionHypothesis =>
    rw [shown_cons, unmarked_append, inductionHypothesis]
    cases segment with
    | plain c => rw [Segment.shown, unmarked_own, bareText_plain, ← visible_cons]
    | head one =>
      rw [Segment.shown, unmarked_append, unmarked_own, unmarked_cons_mark, unmarked_own, bareText_head,
        visible_append, visible_bare, visible_joint]
      simp

/-- With the marks the text with its return types is shown. -/
theorem marked_shown (segments : List Segment) : marked (shown segments) = visible (typedText segments) := by
  induction segments with
  | nil => rfl
  | cons segment segments inductionHypothesis =>
    rw [shown_cons, marked_append, inductionHypothesis]
    cases segment with
    | plain c => rw [Segment.shown, marked_own, typedText_plain, ← visible_cons]
    | head one =>
      rw [Segment.shown, marked_append, marked_own, marked_cons, marked_own, typedText_head, visible_append,
        visible_typed, visible_joint, Part.shown]
      simp

/-- Every mark is that of a return type, and stands between a closing parenthesis and a brace or an arrow. -/
def BetweenListAndBody (parts : List Part) : Prop :=
  ∀ front mark back, parts = front ++ .mark mark :: back →
    (∃ earlier, front = earlier ++ [.own ')']) ∧ (∃ async, mark = typeMark async) ∧
      ∃ later, back = .own '\x7b' :: later ∨ back = .own '=' :: .own '>' :: later

/-- A mark that is shown is that of a head. -/
theorem mark_of_shown {front back : List Part} {mark : List Char}
    (same : shown segments = front ++ .mark mark :: back) : ∃ before head behind earlier,
      segments = before ++ .head head :: behind ∧ front = earlier ++ [.own ')'] ∧ mark = typeMark head.isAsync ∧
        back = head.sign.map .own ++ shown behind := by
  induction segments generalizing front with
  | nil => exact absurd same.symm (by simp)
  | cons segment segments inductionHypothesis =>
    rw [shown_cons] at same
    cases segment with
    | plain c =>
      obtain ⟨later, rfl, split⟩ := mark_behind_own same
      obtain ⟨before, head, behind, earlier, rfl, rfl, type, ahead⟩ := inductionHypothesis split
      exact ⟨.plain c :: before, head, behind, _ ++ earlier, rfl, (List.append_assoc ..).symm, type, ahead⟩
    | head one =>
      rw [Segment.shown, List.append_assoc, List.cons_append] at same
      rcases first_mark same with ⟨rfl, rfl, rfl⟩ | ⟨others, rfl, behindHead⟩
      · refine ⟨[], one, segments, (visible one.opening ++ '(' :: visible one.parameters.val).map .own, rfl, ?_, rfl,
          by rw [visible_joint]⟩
        simp
      · obtain ⟨later, rfl, split⟩ := mark_behind_own behindHead
        obtain ⟨before, head, behind, earlier, rfl, rfl, type, ahead⟩ := inductionHypothesis split
        refine ⟨.head one :: before, head, behind, (visible one.opening ++ '(' :: (visible one.parameters.val ++
          [')'])).map .own ++ .mark (typeMark one.isAsync) :: ((visible one.joint).map .own ++ earlier), rfl, ?_, type,
          ahead⟩
        simp

/-- The marks of a text with return types stand where they belong. -/
theorem betweenListAndBody {output : List Char} (annotated : Annotated text output segments) :
    BetweenListAndBody (shown segments) := by
  intro front mark back same
  obtain ⟨before, head, behind, earlier, rfl, front_, type, rfl⟩ := mark_of_shown same
  refine ⟨⟨earlier, front_⟩, ⟨_, type⟩, ?_⟩
  cases head with
  | arrow => exact ⟨_, .inr rfl⟩
  | function =>
    obtain ⟨inner, rest, body⟩ := annotated.body before _ behind rfl
    have split := body.split
    cases behind with
    | nil => cases split
    | cons segment behind =>
      cases segment with
      | plain c =>
        obtain ⟨rfl, _⟩ := List.cons.inj split
        exact ⟨_, .inl rfl⟩
      | head one =>
        obtain ⟨c, letter, ⟨_, begins⟩, _⟩ := exists_first_letter one
        rw [bareText_head, begins] at split
        rw [(List.cons.inj split).1] at letter
        exact absurd letter (by decide)

/-! What is asynchronous by the rules of the language. -/

/-- Blanks and comments. -/
inductive IsTrivia : List Char → Prop where
  | none : IsTrivia []
  | blank {c : Char} {rest : List Char} (blank : isBlank c = true) (onward : IsTrivia rest) : IsTrivia (c :: rest)
  | comment {inner rest : List Char} (unclosed : ¬ ['*', '/'] <:+: inner) (onward : IsTrivia rest) :
      IsTrivia (blockComment inner ++ rest)
  | line {inner rest : List Char} (unended : '\n' ∉ inner) (onward : IsTrivia rest) :
      IsTrivia ('/' :: '/' :: (inner ++ '\n' :: rest))

theorem isTrivia_of_blanks (blank : ∀ c ∈ text, isBlank c = true) : IsTrivia text := by
  induction text with
  | nil => exact .none
  | cons c text inductionHypothesis =>
    obtain ⟨here, others⟩ := List.forall_mem_cons.mp blank
    exact .blank here (inductionHypothesis others)

/-- What stands between the word for asynchronous and the parameters, in an arrow function or in any other. -/
inductive IsFunctionWord : Bool → List Char → Prop where
  | function {first star second name third : List Char} (firstTrivia : IsTrivia first)
      (generator : star = [] ∨ star = ['*']) (secondTrivia : IsTrivia second)
      (letters : ∀ c ∈ name, isNameLetter c = true) (thirdTrivia : IsTrivia third)
      (apart : name ≠ [] → first ++ (star ++ second) ≠ []) :
      IsFunctionWord false ("function".toList ++ (first ++ (star ++ (second ++ (name ++ third)))))
  | arrow : IsFunctionWord true []

/-- A parenthesis behind a text closes the parameters of a function; this is what stands in front of the function,
or in front of its parameters if it is an arrow function. -/
def ClosesListOf (isArrow : Bool) (text lead : List Char) : Prop :=
  ∃ word given, text = lead ++ (word ++ '(' :: given) ∧ IsFunctionWord isArrow word ∧ Balanced parentheses given

/-- A text ends with the word for asynchronous, in code and as a word of its own. Comments may stand behind it, but
no line ends there. -/
def ReadsAsync (isArrow : Bool) (text : List Char) : Prop :=
  ∃ before gap, text = before ++ ("async".toList ++ gap) ∧ (before.foldl Surrounding.onward .code).isCode = true ∧
    before.getLast?.any isNameLetter = false ∧ IsTrivia gap ∧ '\n' ∉ gap ∧ (gap = [] → isArrow = true)

/-- A head as far as its parameters go. -/
def Head.list (head : Head) : List Char := head.opening ++ '(' :: head.parameters.val

/-- Behind a text a head has the return type of the function whose parameters close where those of the head do. -/
def IsWellTyped (before : List Char) (head : Head) : Prop :=
  ∃ lead, ClosesListOf head.isArrow (before ++ head.list) lead ∧ (head.isAsync = true ↔ ReadsAsync head.isArrow lead)

/-- The parameters of a head are its own if a closing parenthesis behind them closes the one in front of them. -/
theorem closesListOf_list (balanced : Balanced parentheses head.parameters.val) (before : List Char) :
    ClosesListOf head.isArrow (before ++ head.list) (before ++ head.lead) := by
  cases head with
  | function async first name second given =>
    refine ⟨"function".toList ++ (first.val ++ ([] ++ ([] ++ (name.val ++ second.val)))), given.val, ?_,
      .function (isTrivia_of_blanks first.property.2) (.inl rfl) .none ?_ (isTrivia_of_blanks second.property) ?_,
      balanced⟩
    · simp [Head.list, Head.opening_function, Head.lead, Head.parameters]
    · exact fun c member => Bool.or_eq_true_iff.mpr (.inl (name.property c member))
    · rw [List.nil_append, List.append_nil]
      exact fun _ => first.property.1
  | arrow _ _ _ _ _ given => exact ⟨[], given.val, (List.append_assoc ..).symm, .arrow, balanced⟩

/-- **What a text with return types is.** It is the text itself with other blanks in some heads, and with marks of
return types in them, each between a closing parenthesis and a brace or an arrow. A mark is that of an asynchronous
function exactly if the letters of the word stand in front of the head with blanks behind them; so it is the right
one exactly if these letters stand there just when the function is asynchronous. -/
theorem only_return_types_added (violation : Violation) (text : List Char) : ∃ segments,
    bareText segments = text ∧
      typedText segments = ((Changes.start text).apply returnTypeFixer violation).text ∧
        unmarked (shown segments) = visible text ∧
          marked (shown segments) = visible ((Changes.start text).apply returnTypeFixer violation).text ∧
            BetweenListAndBody (shown segments) ∧ ∀ front head back, segments = front ++ .head head :: back →
              (head.isAsync = true ↔ EndsAsync (bareText front ++ head.lead)) ∧
                (Balanced parentheses head.parameters.val →
                  ClosesListOf head.isArrow (bareText front ++ head.list) (bareText front ++ head.lead)) ∧
                (IsWellTyped (bareText front) head ↔
                  ∃ lead, ClosesListOf head.isArrow (bareText front ++ head.list) lead ∧
                    (EndsAsync (bareText front ++ head.lead) ↔ ReadsAsync head.isArrow lead)) := by
  obtain ⟨segments, annotated⟩ := exists_annotated violation text
  refine ⟨segments, annotated.bare, annotated.typed, ?_, ?_, betweenListAndBody annotated,
    fun front head back split => ?_⟩
  · rw [unmarked_shown, annotated.bare]
  · rw [marked_shown, annotated.typed]
  · have async := annotated.async front head back split
    refine ⟨async.symm, fun balanced => closesListOf_list balanced _, ?_⟩
    rw [async]
    rfl

/-- An asynchronous function. -/
def asyncFunction : List Char := "async function f() \x7b g(); \x7d".toList

/-- Its mark is the right one. -/
theorem only_return_types_added_asyncFunction : ∃ segments front head back,
    segments = front ++ .head head :: back ∧ bareText segments = asyncFunction ∧
      (head.isAsync = true ↔ EndsAsync (bareText front ++ head.lead)) ∧
        marked (shown segments) = "asyncfunctionf():Promise<void>\x7bg();\x7d".toList := by
  obtain ⟨segments, bare, typed, _, visibly, _, heads⟩ := only_return_types_added missingReturnType asyncFunction
  have changed : typedText segments ≠ bareText segments := by
    rw [bare, typed]
    decide +kernel
  obtain ⟨front, head, back, split⟩ := exists_head changed
  refine ⟨segments, front, head, back, split, bare, (heads front head back split).1, visibly.trans ?_⟩
  decide +kernel

/-- An asynchronous function with a comment behind the word for that. -/
def commentedAsync : List Char := "async /* c */ ".toList

/-- It is asynchronous, and gets the return type of a function that is not. -/
theorem commentedAsync_mistyped :
    ((Changes.start (commentedAsync ++ "function f() \x7b g(); \x7d".toList)).apply returnTypeFixer
        missingReturnType).text = commentedAsync ++ "function f(): void \x7b g(); \x7d".toList ∧
      ClosesListOf false (commentedAsync ++ "function f(".toList) commentedAsync ∧
        ReadsAsync false commentedAsync := by
  have opening : "function f".toList = "function".toList ++ ([' '] ++ ([] ++ ([] ++ (['f'] ++ [])))) := by
    decide +kernel
  have gap : " /* c */ ".toList = ' ' :: (blockComment " c ".toList ++ [' ']) := by decide +kernel
  have space : IsTrivia [' '] := .blank (by decide) .none
  refine ⟨by decide +kernel, ⟨"function f".toList, [], by decide +kernel, ?_, by decide +kernel⟩,
    [], " /* c */ ".toList, by decide +kernel, rfl, rfl, ?_, by decide +kernel, by decide +kernel⟩
  · rw [opening]
    exact .function space (.inl rfl) .none (List.all_eq_true.mp (by decide)) .none (by decide)
  · rw [gap]
    exact .blank (by decide) (.comment (by decide +kernel) space)

end Conformance.Fix
