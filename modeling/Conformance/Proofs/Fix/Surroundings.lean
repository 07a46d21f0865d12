import Conformance.Fix.ConsoleCalls
import Conformance.Proofs.Text.Parts
import Mathlib.Data.List.Basic
import Mathlib.Tactic.Common

/-!
# What surrounds a place in a line

A line is read from its beginning, one character after the other: code, quoted texts with their escapes,
line comments and block comments. A quoted text ends at its own mark, a block comment at the first closing
mark behind its opening, and a line comment not at all.
-/

namespace Conformance.Fix

open Text

/-- The marks of quoted texts are no blanks. -/
theorem not_isBlank_of_isQuote {c : Char} (quote : isQuote c = true) : isBlank c = false := by
  simp only [isQuote, Bool.or_eq_true, beq_iff_eq] at quote
  rcases quote with (rfl | rfl) | rfl <;> decide +kernel

/-- What a place in a line is inside of. In code a stroke may begin a comment, and in a block comment a star
may begin the end of it. -/
inductive Surrounding where
  | code
  /-- Code behind a stroke. -/
  | stroke
  | quoted (mark : Char)
  /-- A quoted text behind a backslash. -/
  | escaped (mark : Char)
  | lineComment
  | blockComment
  /-- A block comment behind a star. -/
  | star
  deriving Repr, DecidableEq

namespace Surrounding

/-- What the place behind a character is inside of. -/
def behind : Surrounding → Char → Surrounding
  | code, c => if c = '/' then stroke else if isQuote c then quoted c else code
  | stroke, c =>
    if c = '/' then lineComment else if c = '*' then blockComment else if isQuote c then quoted c else code
  | quoted mark, c => if c = '\\' then escaped mark else if c = mark then code else quoted mark
  | escaped mark, _ => quoted mark
  | lineComment, _ => lineComment
  | blockComment, c => if c = '*' then star else blockComment
  | star, c => if c = '/' then code else if c = '*' then star else blockComment

/-- What the place behind some characters is inside of. -/
def after (place : Surrounding) (text : List Char) : Surrounding := text.foldl behind place

/-- Whether a place is outside quoted texts and comments. -/
def isCode : Surrounding → Bool
  | code => true
  | stroke => true
  | _ => false

/-- Whether a place is inside a comment. -/
def isComment : Surrounding → Bool
  | lineComment => true
  | blockComment => true
  | star => true
  | _ => false

@[simp] theorem after_nil (place : Surrounding) : place.after [] = place := rfl

@[simp] theorem after_cons (place : Surrounding) (c : Char) (text : List Char) :
    place.after (c :: text) = (place.behind c).after text := rfl

@[simp] theorem after_append (place : Surrounding) (first second : List Char) :
    place.after (first ++ second) = (place.after first).after second := List.foldl_append

/-- A line comment goes on to the end of the line. -/
@[simp] theorem lineComment_after (text : List Char) : lineComment.after text = lineComment := by
  induction text with
  | nil => rfl
  | cons c text inductionHypothesis => exact inductionHypothesis

/-- A block comment goes on as long as it is not closed; a star in front of the text counts as well. -/
theorem blockComment_after_or {text : List Char} (place : Surrounding)
    (inside : place = blockComment ∧ ¬ ['*', '/'] <:+: text ∨ place = star ∧ ¬ ['*', '/'] <:+: '*' :: text) :
    place.after text = blockComment ∨ place.after text = star := by
  induction text generalizing place with
  | nil => exact inside.imp And.left And.left
  | cons c text inductionHypothesis =>
    rw [after_cons]
    refine inductionHypothesis _ ?_
    rcases inside with ⟨rfl, closes⟩ | ⟨rfl, closes⟩
    · by_cases star : c = '*'
      · subst star
        exact .inr ⟨rfl, closes⟩
      · exact .inl ⟨if_neg star, fun within => closes (List.infix_cons within)⟩
    · have notStroke : c ≠ '/' := by
        rintro rfl
        exact closes (List.IsPrefix.isInfix ⟨text, rfl⟩)
      have further : ¬ ['*', '/'] <:+: c :: text := fun within => closes (List.infix_cons within)
      by_cases star : c = '*'
      · subst star
        exact .inr ⟨rfl, further⟩
      · refine .inl ⟨?_, fun within => further (List.infix_cons within)⟩
        rw [behind, if_neg notStroke, if_neg star]

/-- A block comment goes on as long as it is not closed. -/
theorem blockComment_after {text : List Char} (closes : ¬ ['*', '/'] <:+: text) :
    blockComment.after text = blockComment ∨ blockComment.after text = star :=
  blockComment_after_or _ (.inl ⟨rfl, closes⟩)

/-- In code a comment around a text that does not close it is passed. -/
theorem code_after_comment {text : List Char} (closes : ¬ ['*', '/'] <:+: text) :
    code.after ("/* ".toList ++ text ++ " */".toList) = code := by
  rw [after_append, after_append]
  have opened : code.after "/* ".toList = blockComment := by decide
  rw [opened]
  rcases blockComment_after closes with comment | comment <;> rw [comment] <;> decide

/-- Whether quoted texts are quoted by one of the marks for that. -/
def wellQuoted : Surrounding → Bool
  | quoted mark => isQuote mark
  | escaped mark => isQuote mark
  | _ => true

/-- What the beginning of a line can be inside of: code, or a quoted text or block comment that began on a
line before it. -/
def beginsLine : Surrounding → Bool
  | code => true
  | quoted mark => isQuote mark
  | blockComment => true
  | _ => false

/-- Only the marks for quoted texts quote. -/
theorem wellQuoted_after {place : Surrounding} (well : place.wellQuoted = true) (text : List Char) :
    (place.after text).wellQuoted = true := by
  induction text generalizing place with
  | nil => exact well
  | cons c text inductionHypothesis =>
    refine inductionHypothesis ?_
    cases place <;> grind [behind, wellQuoted]

theorem wellQuoted_of_beginsLine {place : Surrounding} (begins : place.beginsLine = true) :
    place.wellQuoted = true := by
  cases place with
  | quoted mark => exact begins
  | escaped mark => cases begins
  | _ => rfl

/-- Blanks at the beginning of a line do not change what it is inside of. -/
theorem after_blanks {place : Surrounding} (begins : place.beginsLine = true) {text : List Char}
    (blank : ∀ c ∈ text, isBlank c = true) : place.after text = place := by
  induction text with
  | nil => rfl
  | cons c text inductionHypothesis =>
    obtain ⟨here, others⟩ := List.forall_mem_cons.mp blank
    have other {d : Char} (visible : isBlank d = false) : c ≠ d := by
      rintro rfl
      rw [here] at visible
      cases visible
    have stays : place.behind c = place := by
      cases place with
      | code =>
        have plain : isQuote c = false := by
          rw [← Bool.not_eq_true]
          exact fun quote => other (not_isBlank_of_isQuote quote) rfl
        rw [behind, if_neg (other (by decide +kernel)), plain]
        rfl
      | quoted mark =>
        rw [behind, if_neg (other (by decide +kernel)), if_neg (other (not_isBlank_of_isQuote begins))]
      | blockComment => rw [behind, if_neg (other (by decide +kernel))]
      | _ => cases begins
    rw [after_cons, stays, inductionHypothesis others]

end Surrounding

/-- The text of a block comment. -/
def blockComment (inner : List Char) : List Char := "/*".toList ++ inner ++ "*/".toList

/-- The marks of a block comment, character by character. -/
theorem blockComment_eq (inner : List Char) :
    blockComment inner = '/' :: '*' :: (inner ++ ['*', '/']) := by
  simp [blockComment]

end Conformance.Fix
