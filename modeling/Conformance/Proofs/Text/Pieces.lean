import Conformance.Proofs.Text.Lines
import Conformance.Text.Word
import Mathlib.Data.List.TakeWhile

/-!
# Pieces of a text and of its lines

A text falls into its first line, the boundary behind it, and what follows. So a piece of a line
stands in the text, with the same characters around it up to the line's boundaries, and a piece of
the text without a boundary in it stands in one of the lines. No boundary is a word character:
whether a piece stands beside a word is the same in the line and in the text.
-/

namespace Conformance.Text

/-- Whether a character stands within a line. -/
def isInner (c : Char) : Bool := !isLineBoundary c

/-- What follows a line: a text without the boundary that it begins with. -/
def behindBoundary : List Char → List Char
  | '\r' :: '\n' :: rest => rest
  | _ :: rest => rest
  | [] => []

/-- A line feed behind a carriage return belongs to the same boundary, and nothing else does. -/
theorem behindBoundary_cons {c : Char} {rest : List Char}
    (apart : ∀ others, c = '\r' → rest = '\n' :: others → False) : behindBoundary (c :: rest) = rest := by
  rw [behindBoundary.eq_def]
  split
  · next same =>
    obtain ⟨rfl, rfl⟩ := List.cons.inj same
    exact (apart _ rfl rfl).elim
  · next same => exact (List.cons.inj same).2.symm
  · next same => cases same

/-- A text is its first line, a boundary, and the lines that follow. -/
theorem lines_eq {text : List Char} (filled : text ≠ []) :
    lines text = text.takeWhile isInner :: lines (behindBoundary (text.dropWhile isInner)) := by
  induction text using lines.induct with
  | case1 => exact absurd rfl filled
  | case2 rest _ => rw [lines.eq_def]; rfl
  | case3 c rest apart ends _ =>
    have outside : isInner c = false := by simp [isInner, ends]
    rw [List.takeWhile_cons, List.dropWhile_cons, outside, if_neg Bool.false_ne_true,
      if_neg Bool.false_ne_true, behindBoundary_cons apart, lines.eq_def]
    split
    · next same => cases same
    · next same =>
      obtain ⟨rfl, rfl⟩ := List.cons.inj same
      exact (apart _ rfl rfl).elim
    · next same =>
      obtain ⟨rfl, rfl⟩ := List.cons.inj same
      rw [if_pos ends]
  | case4 c rest apart within last inductionHypothesis =>
    have inside : isInner c = true := by simp [isInner, within]
    have none : rest = [] := by
      by_contra more
      rw [inductionHypothesis more] at last
      cases last
    rw [lines_within (Bool.eq_false_iff.mpr within), none, List.takeWhile_cons, List.dropWhile_cons,
      inside]
    rfl
  | case5 c rest apart within piece pieces first inductionHypothesis =>
    have inside : isInner c = true := by simp [isInner, within]
    have more : rest ≠ [] := by
      rintro rfl
      cases first
    have cut := inductionHypothesis more
    rw [lines_within (Bool.eq_false_iff.mpr within), List.takeWhile_cons, List.dropWhile_cons, inside,
      if_pos rfl, if_pos rfl, cut]

/-- What a text begins with behind its first line is a boundary, if there is anything. -/
theorem exists_boundary {text : List Char} (more : text.dropWhile isInner ≠ []) :
    ∃ boundary, text.dropWhile isInner = boundary ++ behindBoundary (text.dropWhile isInner) ∧
      boundary ≠ [] ∧ ∀ c ∈ boundary, isLineBoundary c = true := by
  obtain ⟨c, rest, cut⟩ := List.exists_cons_of_ne_nil more
  have ends : isLineBoundary c = true := by
    have outside := List.head_dropWhile_not isInner more
    simp only [cut, List.head_cons] at outside
    simpa [isInner] using outside
  rw [cut]
  by_cases double : ∃ others, c = '\r' ∧ rest = '\n' :: others
  · obtain ⟨others, rfl, rfl⟩ := double
    exact ⟨['\r', '\n'], rfl, by simp, List.forall_mem_cons.mpr ⟨rfl, List.forall_mem_singleton.mpr rfl⟩⟩
  · refine ⟨[c], ?_, by simp, by simpa using ends⟩
    rw [behindBoundary_cons fun others first second => double ⟨others, first, second⟩]
    rfl

/-- Whether a word character stands at the end of a text. -/
def endsInWord (text : List Char) : Bool := text.getLast?.any isWord

/-- Whether a word character stands at the beginning of a text. -/
def beginsWithWord (text : List Char) : Bool := text.head?.any isWord

/-- No boundary is a word character. -/
theorem isWord_boundary {c : Char} (ends : isLineBoundary c = true) : isWord c = false := by
  simp only [isLineBoundary, Bool.or_eq_true, beq_iff_eq] at ends
  rcases ends with ((((((((rfl | rfl) | rfl) | rfl) | rfl) | rfl) | rfl) | rfl) | rfl) | rfl <;>
    decide +kernel

/-- Behind a text that does not end in a word one ends like the part behind it. -/
theorem endsInWord_append {before : List Char} (plain : endsInWord before = false) (behind : List Char) :
    endsInWord (before ++ behind) = endsInWord behind := by
  rcases List.eq_nil_or_concat' behind with rfl | ⟨others, last, rfl⟩
  · rw [List.append_nil, plain]
    rfl
  · simp [endsInWord, ← List.append_assoc]

/-- In front of a text that does not begin with a word one begins like the part in front of it. -/
theorem beginsWithWord_append {behind : List Char} (plain : beginsWithWord behind = false)
    (before : List Char) : beginsWithWord (before ++ behind) = beginsWithWord before := by
  cases before with
  | nil => exact plain
  | cons c before => rfl

/-- Behind a boundary no word ends. -/
theorem endsInWord_boundary {boundary : List Char} (filled : boundary ≠ [])
    (ends : ∀ c ∈ boundary, isLineBoundary c = true) (before : List Char) :
    endsInWord (before ++ boundary) = false := by
  obtain ⟨others, last, rfl⟩ := (List.eq_nil_or_concat' boundary).resolve_left filled
  simp [endsInWord, ← List.append_assoc, isWord_boundary (ends last (by simp))]

/-- Up to its first boundary a text begins like the whole text. -/
theorem beginsWithWord_takeWhile (text : List Char) :
    beginsWithWord (text.takeWhile isInner) = beginsWithWord text := by
  cases text with
  | nil => rfl
  | cons c rest =>
    rw [List.takeWhile_cons]
    split
    · rfl
    · next outside =>
      have ends : isLineBoundary c = true := by simpa [isInner] using outside
      simp [beginsWithWord, isWord_boundary ends]

/-- Behind the first line no word begins. -/
theorem beginsWithWord_dropWhile (text : List Char) :
    beginsWithWord (text.dropWhile isInner) = false := by
  cases cut : text.dropWhile isInner with
  | nil => rfl
  | cons c rest =>
    have outside := List.head_dropWhile_not isInner (l := text) (by simp [cut])
    simp only [cut, List.head_cons] at outside
    have ends : isLineBoundary c = true := by simpa [isInner] using outside
    simp [beginsWithWord, isWord_boundary ends]

/-- A boundary ends in front of anything but a line feed. -/
theorem behindBoundary_append {front : List Char} (filled : front ≠ []) {c : Char} (plain : c ≠ '\n')
    (rest : List Char) : behindBoundary (front ++ c :: rest) = behindBoundary front ++ c :: rest := by
  match front with
  | [] => exact absurd rfl filled
  | [d] =>
    have single : behindBoundary [d] = [] := behindBoundary_cons fun _ _ same => by cases same
    rw [single]
    exact behindBoundary_cons fun _ _ same => plain (List.cons.inj same).1
  | d :: e :: front =>
    by_cases double : d = '\r' ∧ e = '\n'
    · obtain ⟨rfl, rfl⟩ := double
      rfl
    · have apart (others more : List Char) (first : d = '\r') (second : e :: others = '\n' :: more) :
          False := double ⟨first, (List.cons.inj second).1⟩
      rw [behindBoundary_cons (apart front), List.cons_append, List.cons_append,
        behindBoundary_cons (apart _)]

/-- A line stands in its text, and beside no word. The induction is on the length of the text. -/
theorem exists_around_line {text line : List Char} (member : line ∈ lines text) :
    ∃ before behind, text = before ++ (line ++ behind) ∧ endsInWord before = false ∧
      beginsWithWord behind = false := by
  induction size : text.length using Nat.strong_induction_on generalizing text with
  | _ size inductionHypothesis =>
  subst size
  have filled : text ≠ [] := by
    rintro rfl
    cases member
  have split := List.takeWhile_append_dropWhile (p := isInner) (l := text)
  rw [lines_eq filled] at member
  rcases List.mem_cons.mp member with rfl | later
  · exact ⟨[], text.dropWhile isInner, split.symm, rfl, beginsWithWord_dropWhile text⟩
  · have more : text.dropWhile isInner ≠ [] := by
      intro none
      rw [none] at later
      cases later
    obtain ⟨boundary, cut, some, ends⟩ := exists_boundary more
    have lengths := congrArg List.length split
    have parts := congrArg List.length cut
    have positive := List.length_pos_iff.mpr some
    rw [List.length_append] at lengths parts
    obtain ⟨before, behind, whole, plain, apart⟩ := inductionHypothesis _ (by omega) later rfl
    refine ⟨text.takeWhile isInner ++ boundary ++ before, behind, ?_, ?_, apart⟩
    · rw [List.append_assoc, List.append_assoc, ← whole, ← cut, split]
    · rw [endsInWord_append (endsInWord_boundary some ends _), plain]

/-- A piece of a text without a boundary stands in one of its lines, and beside words there exactly if
it does in the text. The induction is on the length of what stands in front of it. -/
theorem exists_line {piece : List Char} (filled : piece ≠ []) (within : OneLine piece)
    (before behind : List Char) :
    ∃ line ∈ lines (before ++ (piece ++ behind)), ∃ front back, line = front ++ (piece ++ back) ∧
      endsInWord front = endsInWord before ∧ beginsWithWord back = beginsWithWord behind := by
  induction size : before.length using Nat.strong_induction_on generalizing before with
  | _ size inductionHypothesis =>
  subst size
  have inner : ∀ c ∈ piece, isInner c = true := fun c member => by simp [isInner, within c member]
  have some : before ++ (piece ++ behind) ≠ [] := by simp [filled]
  rw [lines_eq some]
  by_cases plain : ∀ c ∈ before, isInner c = true
  · refine ⟨_, List.mem_cons_self, before, behind.takeWhile isInner, ?_, rfl,
      beginsWithWord_takeWhile behind⟩
    rw [List.takeWhile_append_of_pos plain, List.takeWhile_append_of_pos inner]
  · have more : before.dropWhile isInner ≠ [] := fun none => plain (List.dropWhile_eq_nil_iff.mp none)
    obtain ⟨boundary, cut, solid, ends⟩ := exists_boundary more
    have split := List.takeWhile_append_dropWhile (p := isInner) (l := before)
    have lengths := congrArg List.length split
    have parts := congrArg List.length cut
    have positive := List.length_pos_iff.mpr solid
    rw [List.length_append] at lengths parts
    obtain ⟨c, others, first⟩ := List.exists_cons_of_ne_nil filled
    have feed : c ≠ '\n' := by
      rintro rfl
      exact within.feed_not_mem (first ▸ List.mem_cons_self)
    have onward : behindBoundary ((before ++ (piece ++ behind)).dropWhile isInner) =
        behindBoundary (before.dropWhile isInner) ++ (piece ++ behind) := by
      rw [List.dropWhile_append, if_neg (by simpa using more), first, List.cons_append,
        behindBoundary_append more feed]
    obtain ⟨line, member, front, back, whole, left, right⟩ := inductionHypothesis _ (by omega)
      (behindBoundary (before.dropWhile isInner)) rfl
    refine ⟨line, List.mem_cons_of_mem _ (onward ▸ member), front, back, whole, ?_, right⟩
    rw [left, ← endsInWord_append (endsInWord_boundary solid ends (before.takeWhile isInner)),
      List.append_assoc, ← cut, split]

end Conformance.Text
