import Conformance.Json.Printer
import Conformance.Json.Reader
import Conformance.Proofs.Number.Digits
import Mathlib.Data.List.TakeDrop
import Mathlib.Data.List.TakeWhile

/-!
# Numbers in documents

What stands behind a written number is a comma, a line break or nothing, and nothing of that could
belong to the number. So a number that is read on its own is read in a document too, and an integer
is read back unless it has more digits than are read.
-/

namespace Conformance.Json

open Number

/-- Nothing of a text can belong to a number before it. -/
def Stops (rest : List Char) : Prop := ∀ c ∈ rest.head?, c = ',' ∨ c = '\n'

/-- At the end of a text a number stops. -/
theorem stops_nil : Stops [] := by
  intro c member
  cases member

/-- A comma stops a number. -/
theorem stops_comma (text : List Char) : Stops (',' :: text) := by
  intro c member
  exact .inl (Option.some.inj member).symm

/-- A line break stops a number. -/
theorem stops_lineBreak (depth : Nat) (text : List Char) : Stops (lineBreak depth ++ text) := by
  intro c member
  exact .inr (Option.some.inj member).symm

/-- A text that stops a number is empty, or begins with no character of numbers. -/
theorem Stops.cases {rest : List Char} (stops : Stops rest) :
    rest = [] ∨ ∃ c more, rest = c :: more ∧ c.isDigit = false ∧
      c ≠ '.' ∧ c ≠ 'e' ∧ c ≠ 'E' ∧ c ≠ '-' ∧ c ≠ '+' := by
  cases rest with
  | nil => exact .inl rfl
  | cons c more =>
    right
    rcases stops c rfl with rfl | rfl <;> exact ⟨_, more, rfl, by decide⟩

/-- A reader of a part of a number takes it from the front of a text, and what stops the number is
left to it. -/
def TakesFront {α : Type} (part : List Char → α × List Char) : Prop :=
  ∀ text, (part text).2 <:+ text ∧
    ∀ rest, Stops rest → part (text ++ rest) = ((part text).1, (part text).2 ++ rest)

/-- Digits are taken from the front. -/
theorem takesFront_takeAsciiDigits : TakesFront takeAsciiDigits := by
  intro text
  unfold takeAsciiDigits
  constructor
  · rw [List.span_eq_takeWhile_dropWhile]
    exact List.dropWhile_suffix _
  · intro rest stops
    induction text with
    | nil =>
      rcases stops.cases with rfl | ⟨c, more, rfl, other, _⟩
      · rfl
      · simp [List.span_eq_takeWhile_dropWhile, other]
    | cons c text inductionHypothesis =>
      simp only [List.span_eq_takeWhile_dropWhile] at inductionHypothesis ⊢
      by_cases digit : c.isDigit = true
      · simpa [digit] using inductionHypothesis
      · simp [digit]

/-- A fraction is taken from the front. -/
theorem takesFront_fractionPart : TakesFront fractionPart := by
  intro text
  cases text with
  | nil =>
    refine ⟨List.suffix_refl _, ?_⟩
    intro rest stops
    rcases stops.cases with rfl | ⟨c, more, rfl, _, point, _⟩
    · rfl
    · simp [fractionPart, point]
  | cons c text =>
    by_cases point : c = '.'
    · subst point
      obtain ⟨within, onward⟩ := takesFront_takeAsciiDigits text
      simp only [fractionPart, List.cons_append]
      cases taken : takeAsciiDigits text with
      | mk ds behind =>
        rw [taken] at within onward
        cases ds with
        | nil =>
          refine ⟨List.suffix_refl _, ?_⟩
          intro rest stops
          simp [onward rest stops]
        | cons d ds =>
          refine ⟨within.trans (List.suffix_cons _ _), ?_⟩
          intro rest stops
          simp [onward rest stops]
    · refine ⟨by simp [fractionPart, point], ?_⟩
      intro rest stops
      simp [fractionPart, point]

/-- A sign is taken from the front. -/
theorem takesFront_splitSign : TakesFront splitSign := by
  intro text
  cases text with
  | nil =>
    refine ⟨List.suffix_refl _, ?_⟩
    intro rest stops
    rcases stops.cases with rfl | ⟨c, more, rfl, _, _, _, _, minus, plus⟩
    · rfl
    · simp [splitSign, minus, plus]
  | cons c text =>
    by_cases minus : c = '-'
    · subst minus
      exact ⟨List.suffix_cons _ _, fun rest stops => rfl⟩
    · by_cases plus : c = '+'
      · subst plus
        exact ⟨List.suffix_cons _ _, fun rest stops => rfl⟩
      · refine ⟨by simp [splitSign, minus, plus], ?_⟩
        intro rest stops
        simp [splitSign, minus, plus]

/-- An exponent is taken from the front. -/
theorem takesFront_exponentPart : TakesFront exponentPart := by
  intro text
  cases text with
  | nil =>
    refine ⟨List.suffix_refl _, ?_⟩
    intro rest stops
    rcases stops.cases with rfl | ⟨c, more, rfl, _, _, small, large, _⟩
    · rfl
    · simp [exponentPart, small, large]
  | cons c text =>
    by_cases mark : c = 'e' ∨ c = 'E'
    · obtain ⟨inside, signed⟩ := takesFront_splitSign text
      obtain ⟨within, onward⟩ := takesFront_takeAsciiDigits (splitSign text).2
      simp only [exponentPart, mark, if_true, List.cons_append]
      cases taken : takeAsciiDigits (splitSign text).2 with
      | mk ds behind =>
        rw [taken] at within onward
        cases ds with
        | nil =>
          refine ⟨List.suffix_refl _, ?_⟩
          intro rest stops
          simp [signed rest stops, onward rest stops]
        | cons d ds =>
          refine ⟨(within.trans inside).trans (List.suffix_cons _ _), ?_⟩
          intro rest stops
          simp [signed rest stops, onward rest stops]
    · refine ⟨by simp [exponentPart, mark], ?_⟩
      intro rest stops
      simp [exponentPart, mark]

/-- The digits before a fraction and an exponent. A leading zero stands alone. -/
def wholePart (text : List Char) : List Char × List Char :=
  match text with
  | '0' :: rest => (['0'], rest)
  | _ => takeAsciiDigits text

/-- The digits before a fraction are taken from the front. -/
theorem takesFront_wholePart : TakesFront wholePart := by
  intro text
  cases text with
  | nil =>
    refine ⟨List.suffix_refl _, ?_⟩
    intro rest stops
    rcases stops.cases with rfl | ⟨c, more, rfl, other, _⟩
    · rfl
    · have zero : c ≠ '0' := by
        rintro rfl
        cases other
      simpa [wholePart, zero] using (takesFront_takeAsciiDigits []).2 _ stops
  | cons c text =>
    by_cases zero : c = '0'
    · subst zero
      exact ⟨List.suffix_cons _ _, fun rest stops => rfl⟩
    · have plain (more : List Char) : wholePart (c :: more) = takeAsciiDigits (c :: more) := by
        simp [wholePart, zero]
      rw [plain]
      refine ⟨(takesFront_takeAsciiDigits (c :: text)).1, ?_⟩
      intro rest stops
      rw [List.cons_append, plain]
      exact (takesFront_takeAsciiDigits (c :: text)).2 rest stops

/-- What its parts make of a number. -/
def assembled (negative : Bool) (ds fraction : List Char) (exponent : Option Int) :
    Except Fault Json :=
  if ds.isEmpty then .error .malformed
  else if fraction.isEmpty ∧ exponent.isNone then
    if ds.length > integerTextLimit then .error (.oversized ⟨ds.length⟩)
    else .ok (.integer (if negative then -(asciiValue ds : Int) else asciiValue ds))
  else
    .ok (.number (Decimal.toBinary negative
      ⟨asciiValue (ds ++ fraction), exponent.getD 0 - fraction.length⟩))

/-- A number is read part by part. -/
theorem unsigned_eq (negative : Bool) (text : List Char) :
    unsigned negative text =
      let whole := wholePart text
      let fraction := fractionPart whole.2
      let exponent := exponentPart fraction.2
      (assembled negative whole.1 fraction.1 exponent.1).map fun number => (number, exponent.2) := by
  unfold unsigned
  dsimp only
  split
  · next _ behind found =>
    have whole : wholePart text = ([], behind) := found
    rw [whole]
    rfl
  · next _ ds behind filled found =>
    have whole : wholePart text = (ds, behind) := found
    have present : ds.isEmpty = false := List.isEmpty_eq_false_iff.mpr filled
    simp only [whole, assembled, present, Bool.false_eq_true, if_false]
    split
    · split <;> rfl
    · rfl

/-- A number is read from the front of a text, and what stops it is left to it. -/
theorem unsigned_append (stops : Stops rest) (negative : Bool) (text : List Char) :
    unsigned negative (text ++ rest) =
      (unsigned negative text).map fun found => (found.1, found.2 ++ rest) := by
  have wholes := (takesFront_wholePart text).2 rest stops
  have fractions := (takesFront_fractionPart (wholePart text).2).2 rest stops
  have exponents := (takesFront_exponentPart (fractionPart (wholePart text).2).2).2 rest stops
  rw [unsigned_eq, unsigned_eq]
  simp only [wholes, fractions, exponents]
  cases assembled negative (wholePart text).1 (fractionPart (wholePart text).2).1
    (exponentPart (fractionPart (wholePart text).2).2).1 <;> rfl

/-- What is left behind a number is the end of the text. -/
theorem unsigned_suffix {negative : Bool} {text behind : List Char} {number : Json}
    (read : unsigned negative text = .ok (number, behind)) : behind <:+ text := by
  have first := (takesFront_wholePart text).1
  have second := (takesFront_fractionPart (wholePart text).2).1
  have third := (takesFront_exponentPart (fractionPart (wholePart text).2).2).1
  rw [unsigned_eq] at read
  simp only at read
  cases made : assembled negative (wholePart text).1 (fractionPart (wholePart text).2).1
      (exponentPart (fractionPart (wholePart text).2).2).1 with
  | error fault =>
    rw [made] at read
    cases read
  | ok found =>
    rw [made] at read
    obtain ⟨_, rfl⟩ := Prod.mk.inj (Except.ok.inj read)
    exact third.trans (second.trans first)

/-- The characters of written numbers. -/
def IsNumeral (c : Char) : Prop := c.isDigit = true ∨ c ∈ ['-', '+', '.', 'e']

/-- No character of a number is white space. -/
theorem IsNumeral.solid {c : Char} (numeral : IsNumeral c) : isSpace c = false := by
  have blank : ∀ other ∈ [' ', '\t', '\n', '\r'], ¬ IsNumeral other := by
    simp [IsNumeral]
  by_contra space
  refine blank c ?_ numeral
  rw [Bool.not_eq_false] at space
  simpa [isSpace, or_assoc] using space

/-- No keyword begins like a number. -/
theorem keyword?_numeral {text rest : List Char} (filled : text ≠ [])
    (numeral : ∀ c ∈ text, IsNumeral c) (stops : Stops rest) : keyword? (text ++ rest) = none := by
  have letters : ∀ c ∈ ['n', 't', 'f', 'N', 'I'], ¬ IsNumeral c := by
    simp [IsNumeral]
  obtain ⟨c, more, rfl⟩ := List.exists_cons_of_ne_nil filled
  have first : ∀ letter ∈ ['n', 't', 'f', 'N', 'I'], letter ≠ c := by
    rintro letter member rfl
    exact letters letter member (numeral letter List.mem_cons_self)
  -- The one keyword that begins with a sign goes on with a letter.
  have second : ∀ next ∈ (more ++ rest).head?, 'I' ≠ next := by
    rintro next member rfl
    cases more with
    | nil =>
      have other := stops 'I' member
      revert other
      decide
    | cons d more =>
      obtain rfl : d = 'I' := Option.some.inj member
      exact letters 'I' (by simp) (numeral 'I' (by simp))
  simp only [List.mem_cons, List.not_mem_nil, or_false, forall_eq_or_imp, forall_eq] at first
  cases behind : more ++ rest with
  | nil => simp [keyword?, behind, first]
  | cons next following =>
    have letter := second next (by simp [behind])
    simp [keyword?, behind, first, letter]

/-- The digits of a number have the value that they spell. -/
theorem asciiValue_digits (value : Nat) : asciiValue (digits value) = value :=
  ofDigits_digits value

/-- Digits are all taken. -/
theorem takeAsciiDigits_digits (value : Nat) : takeAsciiDigits (digits value) = (digits value, []) := by
  have all := isDigit_of_mem_digits value
  rw [takeAsciiDigits, List.span_eq_takeWhile_dropWhile, List.takeWhile_eq_self_iff.mpr all,
    List.dropWhile_eq_nil_iff.mpr all]

/-- Digits are all taken as the whole part of a number. -/
theorem wholePart_digits (value : Nat) : wholePart (digits value) = (digits value, []) := by
  rcases Nat.eq_zero_or_pos value with rfl | positive
  · rfl
  · have first := head?_digits value positive
    unfold wholePart
    split
    · next spelled =>
      rw [spelled] at first
      exact absurd rfl first
    · exact takeAsciiDigits_digits value

/-- Digits are read as their number, unless there are too many. -/
theorem unsigned_digits (negative : Bool) (value : Nat) :
    unsigned negative (digits value) =
      if (digits value).length > integerTextLimit then .error (.oversized ⟨(digits value).length⟩)
      else .ok (.integer (if negative then -(value : Int) else value), []) := by
  rw [unsigned_eq, wholePart_digits]
  simp only [assembled, List.isEmpty_iff, digits_ne_nil, if_false, asciiValue_digits]
  have fraction : fractionPart [] = ([], []) := rfl
  have exponent : exponentPart [] = (none, []) := rfl
  simp only [fraction, exponent, Option.isNone_none, and_self, if_true]
  split <;> rfl

/-- The text of an integer has characters of numbers. -/
theorem isNumeral_of_mem_integerText (value : Int) : ∀ c ∈ integerText value, IsNumeral c := by
  intro c member
  unfold integerText at member
  split at member
  · rcases List.mem_cons.mp member with rfl | later
    · exact .inr (by decide)
    · exact .inl (isDigit_of_mem_digits _ c later)
  · exact .inl (isDigit_of_mem_digits _ c member)

/-- The text of an integer has a character. -/
theorem integerText_ne_nil (value : Int) : integerText value ≠ [] := by
  unfold integerText
  split
  · exact List.cons_ne_nil _ _
  · exact digits_ne_nil _

/-- A number with its sign. -/
def signed (text : List Char) : Except Fault (Json × List Char) :=
  match text with
  | '-' :: rest => unsigned true rest
  | _ => unsigned false text

/-- A value that begins like a number is read as one. -/
theorem value_numeral {text rest : List Char} (filled : text ≠ []) (numeral : ∀ c ∈ text, IsNumeral c)
    (stops : Stops rest) (fuel room : Nat) :
    Json.value (fuel + 1) room (text ++ rest) = signed (text ++ rest) := by
  have keyword := keyword?_numeral filled numeral stops
  obtain ⟨c, more, rfl⟩ := List.exists_cons_of_ne_nil filled
  have marks : ∀ mark ∈ ['"', '[', '\x7b'], ¬ IsNumeral mark := by
    simp [IsNumeral]
  have other : ∀ mark ∈ ['"', '[', '\x7b'], c ≠ mark := by
    rintro mark member rfl
    exact marks c member (numeral c List.mem_cons_self)
  unfold Json.value
  split
  · next equal => exact absurd (List.cons.inj equal).1 (other '"' (by simp))
  · next equal => exact absurd (List.cons.inj equal).1 (other '[' (by simp))
  · next equal => exact absurd (List.cons.inj equal).1 (other '\x7b' (by simp))
  · rw [keyword]
    rfl

/-- A signed number is read from the front of a text, and what stops it is left to it. -/
theorem signed_append (stops : Stops rest) {text : List Char} (filled : text ≠ []) :
    signed (text ++ rest) = (signed text).map fun found => (found.1, found.2 ++ rest) := by
  obtain ⟨c, more, rfl⟩ := List.exists_cons_of_ne_nil filled
  by_cases minus : c = '-'
  · subst minus
    exact unsigned_append stops true more
  · have plain (text : List Char) : signed (c :: text) = unsigned false (c :: text) := by
      simp [signed, minus]
    rw [List.cons_append, plain, plain]
    exact unsigned_append stops false (c :: more)

/-- What is left behind a signed number is the end of the text. -/
theorem signed_suffix {text behind : List Char} {number : Json}
    (read : signed text = .ok (number, behind)) : behind <:+ text := by
  unfold signed at read
  split at read
  · exact (unsigned_suffix read).trans (List.suffix_cons _ _)
  · exact unsigned_suffix read

/-- An integer is read back, unless it has too many digits. -/
theorem signed_integerText (value : Int) :
    signed (integerText value) =
      if (digits value.natAbs).length > integerTextLimit then
        .error (.oversized ⟨(digits value.natAbs).length⟩)
      else .ok (.integer value, []) := by
  by_cases negative : value < 0
  · have written : signed (integerText value) = unsigned true (digits value.natAbs) := by
      rw [integerText, if_pos negative]
      rfl
    have size : -(value.natAbs : Int) = value := by omega
    rw [written, unsigned_digits, if_pos rfl, size]
  · have written : signed (integerText value) = unsigned false (digits value.natAbs) := by
      rw [integerText, if_neg negative]
      unfold signed
      split
      · next spelled =>
        have digit := isDigit_of_mem_digits value.natAbs '-' (by simp [spelled])
        cases digit
      · rfl
    have size : (value.natAbs : Int) = value := by omega
    rw [written, unsigned_digits, if_neg Bool.false_ne_true, size]

/-- An integer is read from the front of a text, unless it has too many digits. -/
theorem value_integerText (stops : Stops rest) (value : Int) (fuel room : Nat) :
    Json.value (fuel + 1) room (integerText value ++ rest) =
      if (digits value.natAbs).length > integerTextLimit then
        .error (.oversized ⟨(digits value.natAbs).length⟩)
      else .ok (.integer value, rest) := by
  have filled := integerText_ne_nil value
  rw [value_numeral filled (isNumeral_of_mem_integerText value) stops, signed_append stops filled,
    signed_integerText]
  split <;> rfl

/-- Digits are characters of numbers, also when they are filled up with zeros. -/
theorem isNumeral_of_mem_padded (width value : Nat) : ∀ c ∈ padded width value, IsNumeral c := by
  intro c member
  rcases List.mem_append.mp member with zero | digit
  · obtain rfl := (List.mem_replicate.mp zero).2
    exact .inl rfl
  · exact .inl (isDigit_of_mem_digits value c digit)

/-- The text of a decimal has characters of numbers. -/
theorem isNumeral_of_mem_decimalText (decimal : Decimal) : ∀ c ∈ decimal.text, IsNumeral c := by
  have digit : ∀ c ∈ digits decimal.coefficient, IsNumeral c :=
    fun c member => .inl (isDigit_of_mem_digits _ c member)
  have zero : IsNumeral '0' := .inl rfl
  have point : IsNumeral '.' := .inr (by decide)
  have zeros (count : Nat) : ∀ c ∈ List.replicate count '0', IsNumeral c := by
    intro c member
    rw [(List.mem_replicate.mp member).2]
    exact zero
  have front (count : Nat) : ∀ c ∈ (digits decimal.coefficient).take count, IsNumeral c :=
    fun c member => digit c (List.mem_of_mem_take member)
  have back (count : Nat) : ∀ c ∈ (digits decimal.coefficient).drop count, IsNumeral c :=
    fun c member => digit c (List.mem_of_mem_drop member)
  unfold Decimal.text
  dsimp only
  split
  · split
    · simp only [List.forall_mem_append, List.forall_mem_cons]
      exact ⟨⟨digit, zeros _⟩, point, zero, by simp⟩
    · split
      · simp only [List.forall_mem_append, List.forall_mem_cons]
        exact ⟨front _, point, back _⟩
      · simp only [List.cons_append, List.forall_mem_append, List.forall_mem_cons]
        exact ⟨zero, point, zeros _, digit⟩
  · simp only [List.forall_mem_append, List.forall_mem_cons]
    refine ⟨?_, .inr (by decide), ?_, isNumeral_of_mem_padded _ _⟩
    · split
      · next single => exact single ▸ digit
      · next d more _ split =>
        rw [split, List.forall_mem_cons] at digit
        rw [List.forall_mem_cons, List.forall_mem_cons]
        exact ⟨digit.1, point, digit.2⟩
      · simp
    · split <;> exact .inr (by decide)

/-- The text of a finite number has characters of numbers. -/
theorem isNumeral_of_mem_numberText (negative : Bool) (significand : Nat) (exponent : Int) :
    ∀ c ∈ numberText (.finite negative significand exponent), IsNumeral c := by
  have body : ∀ c ∈ (if significand = 0 then ['0', '.', '0']
      else (shortest significand exponent).text), IsNumeral c := by
    split
    · simp [IsNumeral]
    · exact isNumeral_of_mem_decimalText _
  intro c member
  simp only [numberText, Binary64.finiteText?, Option.getD_some] at member
  split at member
  · rcases List.mem_cons.mp member with rfl | later
    · exact .inr (by decide)
    · exact body c later
  · exact body c member

/-- White space in front of a number is skipped, and none is left. -/
theorem skipSpace_numeral {text : List Char} (numeral : ∀ c ∈ text, IsNumeral c) :
    skipSpace text = text := by
  cases text with
  | nil => rfl
  | cons c text => simp [skipSpace, (numeral c List.mem_cons_self).solid]

/-- A text is read if a value stands in it between white space. -/
theorem read_eq_ok (text : List Char) (document : Json) :
    Json.read text = .ok document ↔
      ∃ behind, Json.value (text.length + 1) nestingLimit (skipSpace text) = .ok (document, behind) ∧
        skipSpace behind = [] := by
  rw [Json.read]
  cases Json.value (text.length + 1) nestingLimit (skipSpace text) with
  | error fault => simp [bind, Except.bind]
  | ok found =>
    obtain ⟨other, behind⟩ := found
    by_cases done : skipSpace behind = []
    · simp [bind, Except.bind, pure, Except.pure, done, Prod.ext_iff]
    · simp only [bind, Except.bind, List.isEmpty_iff, done, if_false]
      constructor
      · intro failed
        cases failed
      · rintro ⟨_, same, blank⟩
        obtain ⟨_, rfl⟩ := Prod.mk.inj (Except.ok.inj same)
        exact absurd blank done

/-- A finite number is printed and read back. -/
def ReadBack (value : Binary64) : Prop :=
  (∃ negative significand exponent, value = .finite negative significand exponent) ∧
    Json.read (Json.document (.number value)) = .ok (.number value)

/-- The text of a number that is read back has characters of numbers. -/
theorem ReadBack.numeral {value : Binary64} (back : ReadBack value) :
    ∀ c ∈ numberText value, IsNumeral c := by
  obtain ⟨⟨negative, significand, exponent, rfl⟩, _⟩ := back
  exact isNumeral_of_mem_numberText negative significand exponent

/-- The text of a number that is read back has a character. -/
theorem ReadBack.filled {value : Binary64} (back : ReadBack value) : numberText value ≠ [] := by
  intro empty
  have read := back.2
  rw [Json.document, pretty, empty] at read
  cases read

/-- A number that is read back on its own is read from the front of a text. -/
theorem value_numberText (stops : Stops rest) {value : Binary64} (back : ReadBack value)
    (fuel room : Nat) :
    Json.value (fuel + 1) room (numberText value ++ rest) = .ok (.number value, rest) := by
  obtain ⟨behind, read, done⟩ := (read_eq_ok _ _).mp back.2
  have alone := value_numeral back.filled back.numeral stops_nil (numberText value).length
    nestingLimit
  rw [List.append_nil] at alone
  rw [Json.document, pretty, skipSpace_numeral back.numeral, alone] at read
  -- Nothing is left behind the number, since it could only be a part of the number.
  have within := signed_suffix read
  rw [skipSpace_numeral fun c member => back.numeral c (within.subset member)] at done
  rw [value_numeral back.filled back.numeral stops, signed_append stops back.filled, read, done]
  rfl

end Conformance.Json
