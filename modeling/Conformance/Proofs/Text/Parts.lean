import Conformance.Text.Classes
import Conformance.Text.Lines
import Conformance.Text.Search
import Mathlib.Data.List.Basic
import Mathlib.Data.List.DropRight
import Mathlib.Data.List.Infix
import Mathlib.Tactic.Common

/-!
# Parts of a text

Looking for a text finds it exactly if it stands there. A word that lacks a character stands in a
text with that character in it only if it stands on one side of it.
-/

namespace Conformance.Text

/-- What is in a table of intervals is in one of them. -/
theorem exists_interval {intervals : Intervals} {code : Nat} (within : intervals.contains code = true) :
    ∃ interval ∈ intervals, interval.1 ≤ code ∧ code ≤ interval.2 := by
  induction intervals with
  | nil => cases within
  | cons interval intervals inductionHypothesis =>
    obtain ⟨low, high⟩ := interval
    rw [Intervals.contains] at within
    split at within
    · cases within
    · next above =>
      split at within
      · next below => exact ⟨_, List.mem_cons_self, Nat.le_of_not_lt above, below⟩
      · obtain ⟨interval, member, inside⟩ := inductionHypothesis within
        exact ⟨interval, List.mem_cons_of_mem _ member, inside⟩

/-- A text is found exactly if it is a part. -/
theorem occursIn_iff {wanted text : List Char} : occursIn wanted text = true ↔ wanted <:+: text := by
  induction text with
  | nil => simp [occursIn]
  | cons c rest inductionHypothesis =>
    rw [occursIn, Bool.or_eq_true, List.isPrefixOf_iff_prefix, inductionHypothesis, List.infix_cons_iff]

/-- What stands behind a text that begins as wanted. -/
theorem dropStart?_eq_some_iff {wanted text rest : List Char} :
    dropStart? wanted text = some rest ↔ text = wanted ++ rest := by
  induction wanted generalizing text with
  | nil => simp [dropStart?]
  | cons w wanted inductionHypothesis =>
    cases text with
    | nil => simp [dropStart?]
    | cons c text =>
      rw [dropStart?]
      by_cases same : w = c
      · rw [if_pos same, inductionHypothesis, same, List.cons_append, List.cons_inj_right]
      · rw [if_neg same, List.cons_append, List.cons_eq_cons]
        simp [Ne.symm same]

/-- A word without a character begins a text no later than that character. -/
theorem prefix_append_cons_iff {word before behind : List Char} {c : Char} (lacks : c ∉ word) :
    word <+: before ++ c :: behind ↔ word <+: before := by
  induction word generalizing before with
  | nil => simp
  | cons w word inductionHypothesis =>
    rw [List.mem_cons, not_or] at lacks
    cases before with
    | nil => simp [List.cons_prefix_cons, Ne.symm lacks.1]
    | cons b before =>
      rw [List.cons_append, List.cons_prefix_cons, List.cons_prefix_cons, inductionHypothesis lacks.2]

/-- A word without a character stands on one side of it. -/
theorem infix_append_cons_iff {word before behind : List Char} {c : Char} (filled : word ≠ [])
    (lacks : c ∉ word) : word <:+: before ++ c :: behind ↔ word <:+: before ∨ word <:+: behind := by
  induction before with
  | nil =>
    obtain ⟨w, others, rfl⟩ := List.exists_cons_of_ne_nil filled
    rw [List.mem_cons, not_or] at lacks
    simp [List.infix_cons_iff, List.cons_prefix_cons, Ne.symm lacks.1]
  | cons b before inductionHypothesis =>
    rw [List.cons_append, List.infix_cons_iff, List.infix_cons_iff, ← List.cons_append,
      prefix_append_cons_iff lacks, inductionHypothesis, or_assoc]

/-- A character stands for the first time at one place only. -/
theorem append_cons_inj {before other behind onward : List Char} {c : Char} (free : c ∉ before)
    (apart : c ∉ other) (same : before ++ c :: behind = other ++ c :: onward) :
    before = other ∧ behind = onward := by
  induction before generalizing other with
  | nil =>
    cases other with
    | nil => exact ⟨rfl, (List.cons.inj same).2⟩
    | cons d other => exact absurd ((List.cons.inj same).1 ▸ List.mem_cons_self) apart
  | cons b before inductionHypothesis =>
    cases other with
    | nil => exact absurd ((List.cons.inj same).1 ▸ List.mem_cons_self) free
    | cons d other =>
      obtain ⟨rfl, further⟩ := List.cons.inj same
      obtain ⟨rfl, rest⟩ := inductionHypothesis (fun member => free (List.mem_cons_of_mem _ member))
        (fun member => apart (List.mem_cons_of_mem _ member)) further
      exact ⟨rfl, rest⟩

/-!
## Pieces of a text

A text is cut at a separator, and every piece is kept. The cutting goes from piece to piece, so a
text that goes on behind a separator has the pieces of both parts. No piece has a separator in it,
and pieces of this kind that are put together are found again.
-/

variable {separator : Char}

/-- There is always a piece. -/
theorem splitAt_ne_nil (text : List Char) : splitAt separator text ≠ [] := by
  cases text with
  | nil => exact List.cons_ne_nil _ _
  | cons c rest =>
    rw [splitAt]
    split
    · exact List.cons_ne_nil _ _
    · split <;> exact List.cons_ne_nil _ _

/-- The text between two separators is a piece, also if it is empty. -/
example : splitAt ',' ['a', ',', ',', 'b'] = [['a'], [], ['b']] := by
  cbv

/-- A text that goes on behind a separator has the pieces of both parts. -/
theorem splitAt_append (before after : List Char) :
    splitAt separator (before ++ separator :: after) =
      splitAt separator before ++ splitAt separator after := by
  induction before with
  | nil => simp [splitAt]
  | cons c before inductionHypothesis =>
    rw [List.cons_append, splitAt, splitAt, inductionHypothesis]
    split
    · rfl
    · obtain ⟨piece, pieces, cut⟩ := List.exists_cons_of_ne_nil (splitAt_ne_nil before)
      rw [cut]
      rfl

/-- A text without a separator is its own only piece. -/
theorem splitAt_of_not_mem {text : List Char} (whole : separator ∉ text) :
    splitAt separator text = [text] := by
  induction text with
  | nil => rfl
  | cons c rest inductionHypothesis =>
    rw [List.mem_cons, not_or] at whole
    rw [splitAt, if_neg (Ne.symm whole.1), inductionHypothesis whole.2]

/-- No piece has a separator in it. -/
theorem not_mem_of_mem_splitAt {text piece : List Char} (member : piece ∈ splitAt separator text) :
    separator ∉ piece := by
  induction text generalizing piece with
  | nil =>
    rw [List.mem_singleton.mp member]
    exact List.not_mem_nil
  | cons c rest inductionHypothesis =>
    rw [splitAt] at member
    split at member
    · rcases List.mem_cons.mp member with rfl | later
      · exact List.not_mem_nil
      · exact inductionHypothesis later
    · next apart =>
      obtain ⟨first, pieces, cut⟩ := List.exists_cons_of_ne_nil (splitAt_ne_nil rest)
      rw [cut] at member inductionHypothesis
      rcases List.mem_cons.mp member with rfl | later
      · rw [List.mem_cons, not_or]
        exact ⟨Ne.symm apart, inductionHypothesis List.mem_cons_self⟩
      · exact inductionHypothesis (List.mem_cons_of_mem _ later)

/-- A character that is no separator goes to the first piece. -/
theorem splitAt_cons {c : Char} (within : c ≠ separator) (rest : List Char) :
    ∃ piece pieces, splitAt separator rest = piece :: pieces ∧
      splitAt separator (c :: rest) = (c :: piece) :: pieces := by
  obtain ⟨piece, pieces, cut⟩ : ∃ piece pieces, splitAt separator rest = piece :: pieces :=
    List.exists_cons_of_ne_nil (splitAt_ne_nil rest)
  refine ⟨piece, pieces, cut, ?_⟩
  rw [splitAt, if_neg within, cut]

/-- The first piece goes up to the first separator. -/
theorem head?_splitAt (text : List Char) :
    (splitAt separator text)[0]? = some (text.takeWhile (· != separator)) := by
  induction text with
  | nil => rfl
  | cons c rest inductionHypothesis =>
    by_cases apart : c = separator
    · rw [splitAt, if_pos apart, List.takeWhile_cons_of_neg (by simpa using apart)]
      rfl
    · obtain ⟨piece, pieces, cut, cutAll⟩ := splitAt_cons apart rest
      rw [cut] at inductionHypothesis
      rw [cutAll, List.takeWhile_cons_of_pos (by simpa using apart), ← Option.some.inj inductionHypothesis]
      rfl

/-- One more piece in front of others that are put together. -/
theorem joinLines_cons (piece : List Char) {pieces : List (List Char)} (further : pieces ≠ []) :
    joinLines (piece :: pieces) = piece ++ '\n' :: joinLines pieces := by
  obtain ⟨next, pieces, rfl⟩ := List.exists_cons_of_ne_nil further
  rfl

/-- Pieces without line feeds are found again when they have been put together. -/
theorem splitLines_joinLines {pieces : List (List Char)} (filled : pieces ≠ [])
    (whole : ∀ piece ∈ pieces, '\n' ∉ piece) : splitLines (joinLines pieces) = pieces := by
  induction pieces with
  | nil => exact absurd rfl filled
  | cons piece pieces inductionHypothesis =>
    have first := splitAt_of_not_mem (whole piece List.mem_cons_self)
    by_cases further : pieces = []
    · subst further
      simpa [joinLines, splitLines, List.intercalate] using first
    · have others := inductionHypothesis further fun other member =>
        whole other (List.mem_cons_of_mem _ member)
      rw [splitLines] at others ⊢
      rw [joinLines_cons piece further, splitAt_append, first, others]
      rfl

/-- The pieces of a text put together again are the text. -/
theorem joinLines_splitLines (text : List Char) : joinLines (splitLines text) = text := by
  induction text with
  | nil => rfl
  | cons c rest inductionHypothesis =>
    rw [splitLines] at inductionHypothesis
    rw [splitLines, splitAt]
    split
    · next feed =>
      rw [joinLines_cons [] (splitAt_ne_nil rest), inductionHypothesis, feed]
      rfl
    · split
      · next empty => exact absurd empty (splitAt_ne_nil rest)
      · next piece pieces same =>
        rw [same] at inductionHypothesis
        rw [← inductionHypothesis]
        cases pieces with
        | nil => rfl
        | cons next pieces => rfl

/-!
## Trimmed texts

Trimming takes away blanks at the ends and nothing else, so a text whose first and last characters
are no blanks stays as it is.
-/

/-- A text without a leading blank keeps its beginning. -/
theorem trimLeft_eq_self {text : List Char} (begins : ∀ c ∈ text.head?, isBlank c = false) :
    trimLeft text = text := by
  cases text with
  | nil => rfl
  | cons c rest => exact List.dropWhile_cons_of_neg (by simp [begins c rfl])

/-- A text without a trailing blank keeps its end. -/
theorem trimRight_eq_self {text : List Char} (ends : ∀ c ∈ text.getLast?, isBlank c = false) :
    trimRight text = text := by
  have kept : trimLeft text.reverse = text.reverse :=
    trimLeft_eq_self fun c first => ends c (by rwa [List.head?_reverse] at first)
  exact (congrArg List.reverse kept).trans text.reverse_reverse

/-- A text without blanks at its ends stays as it is. -/
theorem trim_eq_self {text : List Char} (begins : ∀ c ∈ text.head?, isBlank c = false)
    (ends : ∀ c ∈ text.getLast?, isBlank c = false) : trim text = text := by
  rw [trim, trimLeft_eq_self begins, trimRight_eq_self ends]

/-- Leading blanks are all that is taken away at the beginning. -/
theorem trimLeft_append_of_blank {text : List Char} (blank : ∀ c ∈ text, isBlank c = true)
    (behind : List Char) : trimLeft (text ++ behind) = trimLeft behind :=
  List.dropWhile_append_of_pos blank

/-- Trailing blanks are all that is taken away at the end. -/
theorem trimRight_append_of_blank {behind : List Char} (blank : ∀ c ∈ behind, isBlank c = true)
    (text : List Char) : trimRight (text ++ behind) = trimRight text := by
  rw [trimRight, List.reverse_append,
    List.dropWhile_append_of_pos fun c member => blank c (List.mem_reverse.mp member)]
  rfl

/-- A text is trimmed away exactly if it has blanks only. -/
theorem trim_eq_nil_iff {text : List Char} : trim text = [] ↔ ∀ c ∈ text, isBlank c = true := by
  rw [trim, trimRight, List.reverse_eq_nil_iff, List.dropWhile_eq_nil_iff, trimLeft]
  constructor
  · intro blank
    by_contra other
    have filled : text.dropWhile isBlank ≠ [] := mt List.dropWhile_eq_nil_iff.mp other
    have first := List.head_dropWhile_not isBlank filled
    rw [blank _ (List.mem_reverse.mpr (List.head_mem filled))] at first
    cases first
  · intro blank c member
    rw [List.dropWhile_eq_nil_iff.mpr blank] at member
    cases member

/-- A character that is no blank stands behind leading blanks. -/
theorem exists_behind_blanks {before behind indent rest : List Char} {c : Char}
    (blank : ∀ d ∈ indent, isBlank d = true) (visible : isBlank c = false)
    (whole : before ++ c :: behind = indent ++ rest) : ∃ gap, before = indent ++ gap := by
  rcases List.append_eq_append_iff.mp whole with ⟨_ | ⟨d, onward⟩, rfl, begins⟩ | ⟨gap, same, _⟩
  · exact ⟨[], by simp⟩
  · obtain ⟨rfl, _⟩ := List.cons.inj begins
    rw [blank c (by simp)] at visible
    cases visible
  · exact ⟨gap, same⟩

/-- A character that is no blank stands before trailing blanks. -/
theorem exists_before_blanks {before behind text rest : List Char} {c : Char}
    (blank : ∀ d ∈ rest, isBlank d = true) (visible : isBlank c = false)
    (whole : before ++ c :: behind = text ++ rest) : ∃ after, text = before ++ c :: after := by
  rcases List.append_eq_append_iff.mp whole with ⟨_ | ⟨d, after⟩, rfl, onward⟩ | ⟨gap, _, rfl⟩
  · rw [← onward.trans (List.nil_append _)] at blank
    rw [blank c List.mem_cons_self] at visible
    cases visible
  · obtain ⟨rfl, _⟩ := List.cons.inj onward
    exact ⟨after, rfl⟩
  · rw [blank c (by simp)] at visible
    cases visible

/-- A text that is not blank keeps its end, whatever is behind it. -/
theorem trimLeft_append {text : List Char} (filled : trim text ≠ []) (behind : List Char) :
    trimLeft (text ++ behind) = trimLeft text ++ behind := by
  have other : text.dropWhile isBlank ≠ [] := mt List.dropWhile_eq_nil_iff.mp (mt trim_eq_nil_iff.mpr filled)
  rw [trimLeft, trimLeft, List.dropWhile_append, if_neg]
  simpa using other

/-- Trimming only leaves characters out. -/
theorem mem_of_mem_trim {c : Char} {text : List Char} (member : c ∈ trim text) : c ∈ text := by
  have behind := (List.dropWhile_suffix isBlank).subset (List.mem_reverse.mp member)
  exact (List.dropWhile_suffix isBlank).subset (List.mem_reverse.mp behind)

/-- A text that is not blank keeps its beginning, whatever is before it. -/
theorem trimRight_append {behind : List Char} (filled : trim behind ≠ []) (text : List Char) :
    trimRight (text ++ behind) = text ++ trimRight behind := by
  have other : behind.reverse.dropWhile isBlank ≠ [] := by
    rw [Ne, List.dropWhile_eq_nil_iff]
    exact fun blank => filled (trim_eq_nil_iff.mpr fun c member => blank c (List.mem_reverse.mpr member))
  rw [trimRight, trimRight, List.reverse_append, List.dropWhile_append, if_neg (by simpa using other),
    List.reverse_append, List.reverse_reverse]

/-- Trimming at the end takes blanks away. -/
theorem exists_trimRight_append (text : List Char) : ∃ blanks, text = trimRight text ++ blanks := by
  refine ⟨(text.reverse.takeWhile isBlank).reverse, ?_⟩
  rw [trimRight, ← List.reverse_append, List.takeWhile_append_dropWhile, List.reverse_reverse]

/-- What stands behind a text that is not blank is put behind the trimmed text. Nothing is left of it if
it is blank. -/
theorem exists_trim_append {text : List Char} (filled : trim text ≠ []) (behind : List Char) :
    ∃ more, trim (text ++ behind) = trim text ++ more ∧ (more = [] ↔ trim behind = []) := by
  rw [trim, trimLeft_append filled]
  by_cases blank : trim behind = []
  · refine ⟨[], ?_, iff_of_true rfl blank⟩
    rw [trimRight_append_of_blank (trim_eq_nil_iff.mp blank), List.append_nil, trim]
  · obtain ⟨blanks, split⟩ := exists_trimRight_append (trimLeft text)
    refine ⟨blanks ++ trimRight behind, ?_, iff_of_false ?_ blank⟩
    · rw [trimRight_append blank, ← List.append_assoc, trim, ← split]
    · intro none
      have left := List.append_eq_nil_iff.mp none
      rw [trimRight, List.reverse_eq_nil_iff, List.dropWhile_eq_nil_iff] at left
      exact blank (trim_eq_nil_iff.mpr fun c member => left.2 c (List.mem_reverse.mpr member))

end Conformance.Text
