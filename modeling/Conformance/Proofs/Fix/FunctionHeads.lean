import Conformance.Fix.ReturnTypes
import Conformance.Proofs.Text.Parts
import Mathlib.Data.List.Basic
import Mathlib.Tactic.Common

/-!
# Heads of functions

A head is what stands in front of the brace that opens the body of a function: the words, the name, the
parameters up to the first closing parenthesis, and the arrow of an arrow function, with blanks between them. A
head is written down as it stands in a text, or with a return type behind its parameters and single blanks in
the gaps. A text in which some heads are known is the list of these heads and of all other characters.
-/

namespace Conformance.Fix

open Text

/-- Blanks, perhaps none. -/
abbrev Blanks := {gap : List Char // ∀ c ∈ gap, isBlank c = true}

/-- Blanks that part two words. -/
abbrev Gap := {gap : List Char // gap ≠ [] ∧ ∀ c ∈ gap, isBlank c = true}

/-- A name, and nothing else that could stand in its place. -/
abbrev Name := {name : List Char // ∀ c ∈ name, isWord c = true}

/-- Parameters as they are read: up to the first closing parenthesis. -/
abbrev Parameters := {text : List Char // ')' ∉ text}

/-- The head of a function. -/
inductive Head where
  /-- A declared function: the blanks behind the word for asynchronous, if that is written, those behind the word
  for a function, the name and the parameters, each with the blanks behind it. -/
  | function (async : Option Gap) (afterWord : Gap) (name : Name) (afterName : Blanks) (parameters : Parameters)
      (afterParameters : Blanks)
  /-- A named arrow function: the blanks behind the word for a constant, the name and the sign behind it, then
  the word for asynchronous, the parameters and the arrow with the blanks around it. -/
  | arrow (afterWord : Gap) (name : Name) (afterName afterSign : Blanks) (async : Option Gap)
      (parameters : Parameters) (afterParameters afterArrow : Blanks)
  deriving DecidableEq

/-- The word for asynchronous with the blanks behind it. -/
def asyncText : Option Gap → List Char
  | none => []
  | some gap => "async".toList ++ gap.val

@[simp] theorem asyncText_none : asyncText none = [] := rfl

@[simp] theorem asyncText_some (gap : Gap) : asyncText (some gap) = "async".toList ++ gap.val := rfl

namespace Head

/-- Whether the word for asynchronous is read in a head. -/
def isAsync : Head → Bool
  | function async .. => async.isSome
  | arrow _ _ _ _ async .. => async.isSome

/-- Whether a head is that of an arrow function. -/
def isArrow : Head → Bool
  | function .. => false
  | arrow .. => true

/-- What stands in front of the parameters. -/
def opening : Head → List Char
  | function async first name second .. =>
    asyncText async ++ ("function".toList ++ (first.val ++ (name.val ++ second.val)))
  | arrow first name second third async .. =>
    "const".toList ++ (first.val ++ (name.val ++ (second.val ++ '=' :: (third.val ++ asyncText async))))

/-- What stands in front of the parameters, with single blanks. -/
def spacedOpening : Head → List Char
  | function async _ name .. => asyncText async ++ ("function".toList ++ ' ' :: name.val)
  | arrow _ name _ _ async .. => "const".toList ++ ' ' :: (name.val ++ ' ' :: '=' :: ' ' :: asyncText async)

/-- The parameters. -/
def parameters : Head → Parameters
  | function _ _ _ _ parameters _ => parameters
  | arrow _ _ _ _ _ parameters .. => parameters

/-- What stands between the parameters and the body. -/
def joint : Head → List Char
  | function _ _ _ _ _ gap => gap.val
  | arrow _ _ _ _ _ _ first second => first.val ++ '=' :: '>' :: second.val

/-- What stands between the parameters and the body, with single blanks. -/
def spacedJoint : Head → List Char
  | function .. => [' ']
  | arrow .. => [' ', '=', '>', ' ']

/-- A head as it is written. -/
def bare (head : Head) : List Char := head.opening ++ '(' :: (head.parameters.val ++ ')' :: head.joint)

/-- A head with its return type. -/
def typed (head : Head) : List Char :=
  head.spacedOpening ++
    '(' :: (head.parameters.val ++ ')' :: ':' :: ' ' :: (emptyReturnType head.isAsync ++ head.spacedJoint))

section Forms

variable {async : Option Gap} {first : Gap} {name : Name} {second third fourth : Blanks} {given : Parameters}

theorem opening_function : (function async first name second given third).opening =
    asyncText async ++ ("function".toList ++ (first.val ++ (name.val ++ second.val))) := rfl

theorem opening_arrow {fifth : Blanks} : (arrow first name second third async given fourth fifth).opening =
    "const".toList ++ (first.val ++ (name.val ++ (second.val ++ '=' :: (third.val ++ asyncText async)))) := rfl

theorem spacedOpening_function : (function async first name second given third).spacedOpening =
    asyncText async ++ ("function".toList ++ ' ' :: name.val) := rfl

theorem spacedOpening_arrow {fifth : Blanks} :
    (arrow first name second third async given fourth fifth).spacedOpening =
      "const".toList ++ ' ' :: (name.val ++ ' ' :: '=' :: ' ' :: asyncText async) := rfl

end Forms

end Head

/-- A part of a text: a character, or the head of a function. -/
inductive Segment where
  | plain (c : Char)
  | head (head : Head)
  deriving DecidableEq

/-- What a part is in the text. -/
def Segment.bare : Segment → List Char
  | plain c => [c]
  | head one => one.bare

/-- What a part is with the return types. -/
def Segment.typed : Segment → List Char
  | plain c => [c]
  | head one => one.typed

/-- The text of some parts. -/
def bareText (segments : List Segment) : List Char := segments.flatMap Segment.bare

/-- The text of some parts with the return types. -/
def typedText (segments : List Segment) : List Char := segments.flatMap Segment.typed

variable {segments first second : List Segment} {head : Head} {c : Char}

@[simp] theorem bareText_nil : bareText [] = [] := rfl

@[simp] theorem bareText_plain : bareText (.plain c :: segments) = c :: bareText segments := rfl

@[simp] theorem bareText_head : bareText (.head head :: segments) = head.bare ++ bareText segments := rfl

@[simp] theorem bareText_append : bareText (first ++ second) = bareText first ++ bareText second :=
  List.flatMap_append

@[simp] theorem typedText_nil : typedText [] = [] := rfl

@[simp] theorem typedText_plain : typedText (.plain c :: segments) = c :: typedText segments := rfl

@[simp] theorem typedText_head : typedText (.head head :: segments) = head.typed ++ typedText segments := rfl

@[simp] theorem typedText_append : typedText (first ++ second) = typedText first ++ typedText second :=
  List.flatMap_append

@[simp] theorem bareText_map_plain (text : List Char) : bareText (text.map .plain) = text := by
  induction text with
  | nil => rfl
  | cons c text inductionHypothesis => rw [List.map_cons, bareText_plain, inductionHypothesis]

@[simp] theorem typedText_map_plain (text : List Char) : typedText (text.map .plain) = text := by
  induction text with
  | nil => rfl
  | cons c text inductionHypothesis => rw [List.map_cons, typedText_plain, inductionHypothesis]

/-! What a head is made of. -/

/-- A character that is neither blank nor a word character is in no gap and no name. -/
structure IsMark (c : Char) : Prop where
  visible : isBlank c = false
  apart : isWord c = false

theorem IsMark.not_mem_blanks {c : Char} (mark : IsMark c) {gap : List Char}
    (blank : ∀ d ∈ gap, isBlank d = true) : c ∉ gap := by
  intro member
  have both := blank c member
  rw [mark.visible] at both
  cases both

theorem IsMark.not_mem_word {c : Char} (mark : IsMark c) {word : List Char}
    (letters : ∀ d ∈ word, isWord d = true) : c ∉ word := by
  intro member
  have both := letters c member
  rw [mark.apart] at both
  cases both

/-- The word for asynchronous has no marks in it. -/
theorem IsMark.not_mem_asyncText {c : Char} (mark : IsMark c) (async : Option Gap) : c ∉ asyncText async := by
  cases async with
  | none => exact List.not_mem_nil
  | some gap =>
    rw [asyncText_some, List.mem_append, not_or]
    have letters := List.all_eq_true.mp (by decide +kernel : "async".toList.all isWord = true)
    exact ⟨mark.not_mem_word letters, mark.not_mem_blanks gap.property.2⟩

/-- The words of heads have letters only. -/
theorem isWord_functionWord : ∀ c ∈ "function".toList, isWord c = true :=
  List.all_eq_true.mp (by decide +kernel)

theorem isWord_constWord : ∀ c ∈ "const".toList, isWord c = true := List.all_eq_true.mp (by decide +kernel)

theorem isMark_close : IsMark ')' := ⟨by decide, by decide⟩

theorem isMark_brace : IsMark '\x7d' := ⟨by decide, by decide⟩

/-- Marks other than the sign of a constant are in no opening. -/
theorem IsMark.not_mem_opening {c : Char} (mark : IsMark c) (other : c ≠ '=') (head : Head) :
    c ∉ head.opening := by
  cases head with
  | function async first name second =>
    have word := mark.not_mem_word isWord_functionWord
    simp only [Head.opening_function, List.mem_append, not_or]
    exact ⟨mark.not_mem_asyncText async, word, mark.not_mem_blanks first.property.2,
      mark.not_mem_word name.property, mark.not_mem_blanks second.property⟩
  | arrow first name second third async =>
    have word := mark.not_mem_word isWord_constWord
    simp only [Head.opening_arrow, List.mem_append, List.mem_cons, not_or]
    exact ⟨word, mark.not_mem_blanks first.property.2, mark.not_mem_word name.property,
      mark.not_mem_blanks second.property, other, mark.not_mem_blanks third.property,
      mark.not_mem_asyncText async⟩

/-- They are in no opening with single blanks either. -/
theorem IsMark.not_mem_spacedOpening {c : Char} (mark : IsMark c) (other : c ≠ '=') (head : Head) :
    c ∉ head.spacedOpening := by
  have space : c ≠ ' ' := by
    rintro rfl
    exact absurd mark.visible (by decide)
  cases head with
  | function async first name =>
    have word := mark.not_mem_word isWord_functionWord
    simp only [Head.spacedOpening_function, List.mem_append, List.mem_cons, not_or]
    exact ⟨mark.not_mem_asyncText async, word, space, mark.not_mem_word name.property⟩
  | arrow first name second third async =>
    have word := mark.not_mem_word isWord_constWord
    simp only [Head.spacedOpening_arrow, List.mem_append, List.mem_cons, not_or]
    exact ⟨word, space, mark.not_mem_word name.property, space, other, space, mark.not_mem_asyncText async⟩

/-- Marks other than those of an arrow do not stand between parameters and body. -/
theorem IsMark.not_mem_joint {c : Char} (mark : IsMark c) (sign : c ≠ '=') (angle : c ≠ '>') (head : Head) :
    c ∉ head.joint := by
  cases head with
  | function _ _ _ _ _ gap => exact mark.not_mem_blanks gap.property
  | arrow _ _ _ _ _ _ first second =>
    simp only [Head.joint, List.mem_append, List.mem_cons, not_or]
    exact ⟨mark.not_mem_blanks first.property, sign, angle, mark.not_mem_blanks second.property⟩

/-- Whether a character is a bracket that closes. -/
def isClosing (c : Char) : Bool := c == ')' || c == '\x7d'

/-- A return type has no brackets that close. -/
theorem not_mem_type {c : Char} (closes : isClosing c = true) (head : Head) :
    c ∉ ':' :: ' ' :: (emptyReturnType head.isAsync ++ head.spacedJoint) := by
  have type (async : Bool) : (':' :: ' ' :: emptyReturnType async).all (!isClosing ·) = true := by
    cases async <;> decide +kernel
  have joint : head.spacedJoint.all (!isClosing ·) = true := by
    cases head <;> (rw [Head.spacedJoint]; decide)
  have free : (':' :: ' ' :: (emptyReturnType head.isAsync ++ head.spacedJoint)).all (!isClosing ·) = true := by
    rw [← List.cons_append, ← List.cons_append, List.all_append, type, joint]
    rfl
  intro member
  have other := List.all_eq_true.mp free c member
  rw [closes] at other
  cases other

/-- The first closing parenthesis of a head is the one behind its parameters. -/
theorem bare_eq (head : Head) : ∃ before, head.bare = before ++ ')' :: head.joint ∧ ')' ∉ before := by
  refine ⟨head.opening ++ '(' :: head.parameters.val, by simp [Head.bare], ?_⟩
  simp only [List.mem_append, List.mem_cons, not_or]
  exact ⟨isMark_close.not_mem_opening (by decide) head, by decide, head.parameters.property⟩

/-- A return type stands behind the first closing parenthesis. -/
theorem typed_eq (head : Head) : ∃ before, head.typed =
    before ++ ')' :: ':' :: ' ' :: (emptyReturnType head.isAsync ++ head.spacedJoint) ∧ ')' ∉ before := by
  refine ⟨head.spacedOpening ++ '(' :: head.parameters.val, by simp [Head.typed], ?_⟩
  simp only [List.mem_append, List.mem_cons, not_or]
  exact ⟨isMark_close.not_mem_spacedOpening (by decide) head, by decide, head.parameters.property⟩

/-- The letters that heads begin with. -/
def firstLetters : List Char := ['a', 'f', 'c']

/-- A head begins with a letter, and with the same one if it has a return type. -/
theorem exists_first_letter (head : Head) : ∃ c ∈ firstLetters,
    (∃ rest, head.bare = c :: rest) ∧ ∃ rest, head.typed = c :: rest := by
  cases head with
  | function async =>
    cases async with
    | none => exact ⟨'f', by decide, ⟨_, rfl⟩, _, rfl⟩
    | some gap => exact ⟨'a', by decide, ⟨_, rfl⟩, _, rfl⟩
  | arrow => exact ⟨'c', by decide, ⟨_, rfl⟩, _, rfl⟩

/-- The first letters are not between parameters and body. -/
theorem letter_not_mem_joint (head : Head) {c : Char} (letter : c ∈ firstLetters) : c ∉ head.joint := by
  have visible : firstLetters.all (fun c => !isBlank c && c != '=' && c != '>') = true := by decide
  have other := List.all_eq_true.mp visible c letter
  simp only [Bool.and_eq_true, Bool.not_eq_true', bne_iff_ne] at other
  obtain ⟨⟨filled, sign⟩, angle⟩ := other
  have apart {gap : Blanks} : c ∉ gap.val := fun member => by
    rw [gap.property c member] at filled
    cases filled
  cases head with
  | function => exact apart
  | arrow =>
    simp only [Head.joint, List.mem_append, List.mem_cons, not_or]
    exact ⟨apart, sign, angle, apart⟩

end Conformance.Fix
