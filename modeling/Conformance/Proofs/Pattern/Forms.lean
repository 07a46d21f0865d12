import Conformance.Proofs.Pattern.Matching
import Conformance.Proofs.Pattern.Words
import Conformance.Proofs.Text.Pieces

/-!
# The form of what a pattern takes

What an expression may take can be told from its parts: a character takes itself, a set one of its
characters, one expression and then another one take one text and then another one. If besides that
it only asks for edges of words, then it does not matter where in a text something stands, but only
what it is and whether word characters stand beside it. Then a pattern is found on a line of a text
exactly if what it takes stands somewhere in the text and holds no line boundary, because no
boundary is a word character.
-/

namespace Conformance.Regex

open Text Pattern

/-- An expression may take a text behind a character and at an offset, with the rest behind it. -/
def Fits (regex : Regex) (before : Option Char) (offset : Nat) (text rest : List Char) : Prop :=
  ∃ found, Takes false regex ⟨before, text ++ rest, offset⟩ text found

variable {before : Option Char} {offset : Nat} {text rest : List Char} {first second body : Regex}

/-- One expression and then another one take one text and then another one. -/
theorem fits_seq_iff : Fits (.seq first second) before offset text rest ↔
    ∃ front back, text = front ++ back ∧ Fits first before offset front (back ++ rest) ∧
      Fits second (front.getLast?.or before) (offset + front.length) back rest := by
  constructor
  · rintro ⟨_, takes⟩
    obtain ⟨front, back, between, earlier, later, rfl, _, ahead, begins, goesOn⟩ := takes_seq takes
    rw [List.append_assoc] at ahead
    obtain rfl := List.append_cancel_left ahead
    exact ⟨front, back, rfl, ⟨earlier, by rwa [List.append_assoc] at begins⟩, ⟨later, goesOn⟩⟩
  · rintro ⟨front, back, rfl, ⟨earlier, begins⟩, ⟨later, goesOn⟩⟩
    refine ⟨later ++ earlier, .seq (List.append_assoc ..) ?_ goesOn⟩
    rwa [List.append_assoc]

/-- One of two expressions takes what either takes. -/
theorem fits_either_iff : Fits (.either first second) before offset text rest ↔
    Fits first before offset text rest ∨ Fits second before offset text rest := by
  constructor
  · rintro ⟨found, takes⟩
    exact (takes_either takes).imp (⟨found, ·⟩) (⟨found, ·⟩)
  · rintro (⟨found, takes⟩ | ⟨found, takes⟩)
    · exact ⟨found, .left takes⟩
    · exact ⟨found, .right takes⟩

/-- A group takes what its body takes. -/
theorem fits_group_iff {index : Nat} : Fits (.group index body) before offset text rest ↔
    Fits body before offset text rest := by
  constructor
  · rintro ⟨_, takes⟩
    obtain ⟨found, _, takes⟩ := takes_group takes
    exact ⟨found, takes⟩
  · rintro ⟨found, takes⟩
    exact ⟨_, .group takes⟩

/-- A character takes itself. -/
theorem fits_char_iff {c : Char} : Fits (.char c) before offset text rest ↔ text = [c] := by
  constructor
  · rintro ⟨_, takes⟩
    exact (takes_char takes).1
  · rintro rfl
    exact ⟨[], .char (by simp)⟩

/-- A set takes one of its characters. -/
theorem fits_oneOf_iff {items : List SetItem} : Fits (.oneOf false items) before offset text rest ↔
    ∃ c, items.any (itemMatches false c) = true ∧ text = [c] := by
  constructor
  · rintro ⟨_, takes⟩
    obtain ⟨⟨c, single, member⟩, _⟩ := takes_oneOf takes
    exact ⟨c, by simpa using member, single⟩
  · rintro ⟨c, member, rfl⟩
    exact ⟨[], .oneOf (by simpa using member)⟩

/-- A set of single characters takes one of them. -/
theorem fits_marks_iff {marks : List Char} :
    Fits (.oneOf false (marks.map fun mark => .range mark mark)) before offset text rest ↔
      ∃ c ∈ marks, text = [c] := by
  have single (c mark : Char) : itemMatches false c (.range mark mark) = true ↔ mark = c := by
    simp only [itemMatches, Bool.false_and, Bool.or_false, Bool.and_eq_true, decide_eq_true_eq]
    exact ⟨fun both => Char.le_antisymm both.1 both.2, fun same => same ▸ ⟨Char.le_refl _, Char.le_refl _⟩⟩
  simp [fits_oneOf_iff, single]

/-- A repetition of characters from a set takes characters from it, as many as are needed. -/
theorem fits_set_iff {items : List SetItem} {least : Nat} :
    Fits (.loop (.oneOf false items) least none true) before offset text rest ↔
      least ≤ text.length ∧ ∀ c ∈ text, items.any (itemMatches false c) = true := by
  constructor
  · rintro ⟨_, takes⟩
    obtain ⟨enough, passes, _⟩ := takes_loop (fun one => takes_oneOf one) takes
    exact ⟨enough, fun c member => by simpa using passes c member⟩
  · rintro ⟨enough, passes⟩
    induction text generalizing before offset least with
    | nil =>
      obtain rfl : least = 0 := Nat.le_zero.mp enough
      exact ⟨[], .done⟩
    | cons c text inductionHypothesis =>
      obtain ⟨tested, others⟩ := List.forall_mem_cons.mp passes
      rw [List.length_cons] at enough
      obtain ⟨found, further⟩ := @inductionHypothesis (some c) (offset + 1) (least - 1) (by omega) others
      exact ⟨found ++ [], .pass (by simp) rfl (.oneOf (by simpa using tested)) further⟩

/-- What may be missing takes nothing or what it takes once. -/
theorem fits_optional_iff : Fits (.loop body 0 (some 1) true) before offset text rest ↔
    text = [] ∨ Fits body before offset text rest := by
  constructor
  · rintro ⟨_, takes⟩
    cases takes with
    | done => exact .inl rfl
    | pass _ _ first others =>
      right
      cases others with
      | done => exact ⟨_, by simpa using first⟩
      | pass allowed => exact absurd rfl allowed
  · rintro (rfl | ⟨found, takes⟩)
    · exact ⟨[], .done⟩
    · have whole : Takes false (.loop body 0 (some 1) true) ⟨before, text ++ rest, offset⟩ (text ++ [])
          ([] ++ found) := .pass (by simp) rfl takes .done
      rw [List.append_nil] at whole
      exact ⟨_, whole⟩

/-- The edge of a word takes nothing where a word character stands on one side only. -/
theorem fits_wordEdge_iff : Fits .wordEdge before offset text rest ↔
    text = [] ∧ (before.any isWord != rest.head?.any isWord) = true := by
  constructor
  · rintro ⟨_, takes⟩
    cases takes with
    | wordEdge edge => exact ⟨rfl, edge⟩
  · rintro ⟨rfl, edge⟩
    exact ⟨[], .wordEdge edge⟩

/-- A text that is spelled out takes itself, in front of what is behind it. -/
theorem fits_spelled_iff {word : List Char} : Fits (spelled word body) before offset text rest ↔
    ∃ others, text = word ++ others ∧
      Fits body (word.getLast?.or before) (offset + word.length) others rest := by
  induction word generalizing before offset text with
  | nil => simp [spelled]
  | cons c word inductionHypothesis =>
    have step : spelled (c :: word) body = .seq (.char c) (spelled word body) := rfl
    have last : (c :: word).getLast?.or before = word.getLast?.or (some c) := by
      cases word with
      | nil => rfl
      | cons d word => simp [List.getLast?_cons]
    rw [step, fits_seq_iff, last]
    constructor
    · rintro ⟨front, back, rfl, single, goesOn⟩
      obtain rfl := fits_char_iff.mp single
      obtain ⟨others, rfl, further⟩ := inductionHypothesis.mp goesOn
      exact ⟨others, rfl, by rwa [List.length_cons, Nat.add_comm word.length, ← Nat.add_assoc]⟩
    · rintro ⟨others, rfl, further⟩
      rw [List.length_cons, Nat.add_comm word.length, ← Nat.add_assoc] at further
      exact ⟨[c], word ++ others, rfl, fits_char_iff.mpr rfl,
        inductionHypothesis.mpr ⟨others, rfl, further⟩⟩

/-- The expression for a text, and nothing behind it. -/
def spelledOut : List Char → Regex
  | [] => .empty
  | [c] => .char c
  | c :: d :: word => .seq (.char c) (spelledOut (d :: word))

/-- A text that is spelled out takes itself. -/
theorem fits_spelledOut_iff {word : List Char} :
    Fits (spelledOut word) before offset text rest ↔ text = word := by
  induction word using spelledOut.induct generalizing before offset text with
  | case1 =>
    constructor
    · rintro ⟨_, ⟨⟩⟩
      rfl
    · rintro rfl
      exact ⟨[], .empty⟩
  | case2 c => exact fits_char_iff
  | case3 c d word inductionHypothesis =>
    rw [spelledOut, fits_seq_iff]
    constructor
    · rintro ⟨front, back, rfl, single, goesOn⟩
      rw [fits_char_iff.mp single, inductionHypothesis.mp goesOn]
      rfl
    · rintro rfl
      exact ⟨[c], d :: word, rfl, fits_char_iff.mpr rfl, inductionHypothesis.mpr rfl⟩

/-- A word and its end are taken where no word character stands behind it. -/
theorem fits_word_end_iff {word : List Char} (last : endsInWord word = true) :
    Fits (spelled word .wordEdge) before offset text rest ↔
      beginsWithWord rest = false ∧ text = word := by
  have filled : (word.getLast?.or before).any isWord = true := by
    cases ending : word.getLast? with
    | none => simp [endsInWord, ending] at last
    | some c => simpa [endsInWord, ending] using last
  rw [fits_spelled_iff]
  simp only [fits_wordEdge_iff, filled, beginsWithWord]
  constructor
  · rintro ⟨_, rfl, rfl, edge⟩
    exact ⟨by simpa using edge, List.append_nil word⟩
  · rintro ⟨edge, rfl⟩
    exact ⟨[], (List.append_nil _).symm, rfl, by rw [edge]; rfl⟩

/-- The beginning of a word and the word are taken where no word character stands before it. -/
theorem fits_word_start_iff {word : List Char} (first : beginsWithWord word = true) :
    Fits (.seq .wordEdge (spelled word body)) before offset text rest ↔ before.any isWord = false ∧
      ∃ others, text = word ++ others ∧
        Fits body (word.getLast?.or before) (offset + word.length) others rest := by
  rw [fits_seq_iff]
  simp only [fits_wordEdge_iff, fits_spelled_iff]
  have begins (others : List Char) : (word ++ others).head?.any isWord = true := by
    cases word with
    | nil => cases first
    | cons c word => exact first
  constructor
  · rintro ⟨_, _, rfl, ⟨rfl, edge⟩, others, rfl, further⟩
    rw [List.append_assoc, begins] at edge
    exact ⟨by simpa using edge, others, rfl, further⟩
  · rintro ⟨plain, others, rfl, further⟩
    refine ⟨[], word ++ others, rfl, ⟨rfl, ?_⟩, others, rfl, further⟩
    rw [List.append_assoc, begins, plain]
    rfl

end Conformance.Regex

namespace Conformance.Pattern

open Regex Text

/-- The form of a piece of a text: what the piece is, and whether a word character stands directly
before it and directly behind it. -/
def Form : Type := (wordBefore : Bool) → (piece : List Char) → (wordBehind : Bool) → Prop

/-- A piece of a form stands somewhere in a text. -/
def Form.StandsIn (form : Form) (text : List Char) : Prop :=
  ∃ before piece behind, text = before ++ (piece ++ behind) ∧
    form (endsInWord before) piece (beginsWithWord behind)

/-- A piece of a form stands somewhere in a text, and no line ends in it. -/
def Form.StandsOnLine (form : Form) (text : List Char) : Prop :=
  ∃ before piece behind, text = before ++ (piece ++ behind) ∧ OneLine piece ∧
    form (endsInWord before) piece (beginsWithWord behind)

/-- A pattern takes exactly the pieces of a form, none of which is empty. -/
structure Takes (pattern : Pattern) (form : Form) : Prop where
  steady : isSteady pattern.regex = true
  filled : fills pattern.regex = true
  exactCase : pattern.ignoreCase = false
  fits_iff : ∀ before offset piece behind, Fits pattern.regex before offset piece behind ↔
    form (before.any isWord) piece (beginsWithWord behind)

variable {pattern : Pattern} {form : Form}

/-- A pattern is found in a text exactly if a piece of its form stands there. -/
theorem Takes.occursIn_iff (takes : pattern.Takes form) (text : List Char) :
    pattern.occursIn text = true ↔ form.StandsIn text := by
  rw [Pattern.occursIn_iff takes.steady, takes.exactCase]
  have place (before piece behind : List Char) :
      (∃ found, Regex.Takes false pattern.regex ((startOf text).past before (piece ++ behind)) piece found) ↔
        form (endsInWord before) piece (beginsWithWord behind) := by
    have fits := takes.fits_iff (before.getLast?.or none) (0 + before.length) piece behind
    have same : (before.getLast?.or none).any isWord = endsInWord before := by
      rw [Option.or_none]
      rfl
    rw [same] at fits
    exact fits
  constructor
  · rintro ⟨before, piece, behind, found, split, there⟩
    exact ⟨before, piece, behind, split, (place before piece behind).mp ⟨found, there⟩⟩
  · rintro ⟨before, piece, behind, split, there⟩
    obtain ⟨found, there⟩ := (place before piece behind).mpr there
    exact ⟨before, piece, behind, found, split, there⟩

/-- No piece of the form of a pattern is empty. -/
theorem Takes.ne_nil (takes : pattern.Takes form) {wordBefore : Bool} {piece : List Char}
    {behind : List Char} (there : form wordBefore piece (beginsWithWord behind)) : piece ≠ [] := by
  have before : ∃ before : Option Char, before.any isWord = wordBefore := by
    cases wordBefore with
    | false => exact ⟨none, rfl⟩
    | true => exact ⟨some 'a', by decide⟩
  obtain ⟨before, rfl⟩ := before
  obtain ⟨found, there⟩ := (takes.fits_iff before 0 piece behind).mpr there
  exact there.ne_nil takes.filled

/-- A pattern is found on some line of a text exactly if a piece of its form stands in the text and no
line ends in it. -/
theorem Takes.exists_line_iff (takes : pattern.Takes form) (text : List Char) :
    (∃ line ∈ lines text, pattern.occursIn line = true) ↔ form.StandsOnLine text := by
  constructor
  · rintro ⟨line, member, found⟩
    obtain ⟨front, piece, back, rfl, there⟩ := (takes.occursIn_iff line).mp found
    obtain ⟨before, behind, rfl, left, right⟩ := exists_around_line member
    have within : OneLine piece := by
      have whole := oneLine_of_mem_lines member
      rw [oneLine_append, oneLine_append] at whole
      exact whole.2.1
    refine ⟨before ++ front, piece, back ++ behind, by simp only [List.append_assoc], within, ?_⟩
    rwa [endsInWord_append left, beginsWithWord_append right]
  · rintro ⟨before, piece, behind, rfl, within, there⟩
    obtain ⟨line, member, front, back, rfl, left, right⟩ :=
      exists_line (takes.ne_nil there) within before behind
    refine ⟨_, member, (takes.occursIn_iff _).mpr ⟨front, piece, back, rfl, ?_⟩⟩
    rwa [left, right]

end Conformance.Pattern
