import Conformance.Proofs.Fix.ConsoleCalls

/-!
# The pieces of a line

A line is cut into pieces: the calls that are commented out, each with a semicolon behind it, and the
characters between them. The pieces written one behind the other are the line; with the calls in
comments they are the line as it is commented. Which calls there are is told by what stands before
each character and what is ahead of it.
-/

namespace Conformance.Fix

open Text

/-- The calls behind some characters, which are given in reverse. -/
def callsBehind (before text : List Char) : Option (List Span) := spansFrom 0 before before.length text

/-- A part of a line: a character outside the calls, or a call. -/
inductive Piece where
  | plain (c : Char)
  | call (text : List Char)
  deriving Repr, DecidableEq

/-- What a piece is in the line. -/
def Piece.written : Piece → List Char
  | .plain c => [c]
  | .call text => text

/-- What a piece is in the line as it is commented. -/
def Piece.commented : Piece → List Char
  | .plain c => [c]
  | .call text => "/* ".toList ++ text ++ " */".toList

/-- The call that a piece is. -/
def Piece.call? : Piece → Option (List Char)
  | .plain _ => none
  | .call text => some text

/-- The line of some pieces. -/
def written (pieces : List Piece) : List Char := pieces.flatMap Piece.written

/-- The line of some pieces, with their calls in comments. -/
def commented (pieces : List Piece) : List Char := pieces.flatMap Piece.commented

/-- The pieces of a line whose calls stand in the given parts; the offset is that of its first
character. -/
def piecesAt : List Span → (offset : Nat) → List Char → List Piece
  | [], _, line => line.map .plain
  | span :: spans, offset, line =>
    (line.take (span.start - offset)).map .plain ++
      .call ((line.drop (span.start - offset)).take (span.stop - span.start)) ::
        piecesAt spans span.stop (line.drop (span.stop - offset))

/-- Where the calls of some pieces stand, from an offset on. -/
def spansOf : (offset : Nat) → List Piece → List Span
  | _, [] => []
  | offset, .plain _ :: pieces => spansOf (offset + 1) pieces
  | offset, .call text :: pieces => ⟨offset, offset + text.length⟩ :: spansOf (offset + text.length) pieces

/-- A character is passed: no call begins there, or one directly behind the opening of a comment. -/
def Passed (before text : List Char) : Prop :=
  callOpening? text = none ∨
    occursIn ['/', '/'] before = false ∧ [' ', '*', '/'].isPrefixOf before = true

/-- A call begins that is to be commented out. -/
def Opens (before text : List Char) : Prop :=
  callOpening? text ≠ none ∧ occursIn ['/', '/'] before = false ∧ [' ', '*', '/'].isPrefixOf before = false

/-- How a line is read behind some characters: it is cut into pieces, or there is a call that is left
open. Behind a line comment all characters are plain ones. -/
inductive Reading : List Char → List Char → Option (List Piece) → Prop where
  | done (before : List Char) : Reading before [] (some [])
  | inert {before : List Char} (text : List Char) (line : occursIn ['/', '/'] before = true) :
      Reading before text (some (text.map .plain))
  | plain {before rest : List Char} {c : Char} {found : Option (List Piece)}
      (passed : Passed before (c :: rest)) (onward : Reading (c :: before) rest found) :
      Reading before (c :: rest) (found.map (.plain c :: ·))
  | call {before text rest : List Char} {found : Option (List Piece)} (opens : Opens before (text ++ rest))
      (closes : callLength? (text ++ rest) = some text.length)
      (onward : Reading (text.reverse ++ before) rest found) :
      Reading before (text ++ rest) (found.map (.call text :: ·))
  | leftOpen {before text : List Char} (opens : Opens before text) (stays : callLength? text = none) :
      Reading before text none

/-- A character that is passed is not part of a call. -/
theorem spansFrom_passed {covered start : Nat} {before rest : List Char} {c : Char}
    (passed : start < covered ∨ Passed before (c :: rest)) :
    spansFrom covered before start (c :: rest) = spansFrom covered (c :: before) (start + 1) rest := by
  rw [spansFrom]
  split
  · rfl
  · next width opens =>
    rcases passed with within | none | ⟨line, behind⟩
    · rw [if_pos within]
    · rw [opens] at none
      cases none
    · by_cases within : start < covered
      · rw [if_pos within]
      · rw [if_neg within, line, behind]
        rfl

/-- Behind a line comment no call is found. -/
theorem spansFrom_inert {covered start : Nat} {before : List Char} (text : List Char)
    (line : occursIn ['/', '/'] before = true) (uncovered : covered ≤ start) :
    spansFrom covered before start text = some [] := by
  induction text generalizing before start with
  | nil => rfl
  | cons c rest inductionHypothesis =>
    have later : occursIn ['/', '/'] (c :: before) = true := by
      rw [occursIn, line, Bool.or_true]
    rw [spansFrom]
    split
    · exact inductionHypothesis later (Nat.le_succ_of_le uncovered)
    · rw [if_neg (Nat.not_lt.mpr uncovered), if_pos line]

/-- From a position on that is not covered it does not matter what is. -/
theorem spansFrom_uncovered {covered start : Nat} {before text : List Char} (uncovered : covered ≤ start) :
    spansFrom covered before start text = spansFrom 0 before start text := by
  induction text generalizing before start with
  | nil => rfl
  | cons c rest inductionHypothesis =>
    rw [spansFrom, spansFrom, inductionHypothesis (Nat.le_succ_of_le uncovered)]
    simp only [Nat.not_lt.mpr uncovered, Nat.not_lt_zero, if_false]

/-- The characters of a call are passed. -/
theorem spansFrom_covered {start : Nat} {before : List Char} (call rest : List Char) :
    spansFrom (start + call.length) before start (call ++ rest) =
      spansFrom 0 (call.reverse ++ before) (start + call.length) rest := by
  induction call generalizing before start with
  | nil => exact spansFrom_uncovered (Nat.le_refl _)
  | cons c call inductionHypothesis =>
    have within : start < start + (c :: call).length := by
      rw [List.length_cons]
      omega
    have further : start + (c :: call).length = start + 1 + call.length := by
      rw [List.length_cons]
      omega
    rw [List.cons_append, spansFrom_passed (.inl within), further, inductionHypothesis]
    simp

/-- A call that begins is found if it is closed, and the reading goes on behind it. -/
theorem callsBehind_opens {before text : List Char} (opens : Opens before text) :
    callsBehind before text = (callLength? text).bind fun length =>
      (callsBehind ((text.take length).reverse ++ before) (text.drop length)).map
        (⟨before.length, before.length + length⟩ :: ·) := by
  obtain ⟨begun, noLine, apart⟩ := opens
  obtain ⟨width, begins⟩ := Option.ne_none_iff_exists'.mp begun
  cases text with
  | nil => exact absurd begins (by simp [callOpening?, dropStart?])
  | cons c rest =>
    rw [callsBehind, spansFrom, begins]
    dsimp only
    rw [if_neg (Nat.not_lt_zero _), noLine, apart]
    cases ends : callEnd? ((c :: rest).drop width) with
    | none => simp [callLength?, begins, ends]
    | some closed =>
      have closes : callLength? (c :: rest) = some (width + closed +
          if ((c :: rest).drop (width + closed)).head? = some ';' then 1 else 0) := by
        simp [callLength?, begins, ends]
      obtain ⟨call, others, whole, size, inner, last, shape, _⟩ := call_of_callLength? closes
      have onward : spansFrom (before.length + call.length) (c :: before) (before.length + 1) rest =
          callsBehind (call.reverse ++ before) others := by
        rw [shape, List.cons_append] at whole
        obtain ⟨rfl, tail⟩ := List.cons.inj whole
        have stop : before.length + ('c' :: (inner ++ [last])).length =
            before.length + 1 + (inner ++ [last]).length := by
          rw [List.length_cons]
          omega
        rw [shape, stop, tail, spansFrom_covered, callsBehind]
        simp [Nat.add_comm, Nat.add_left_comm]
      simp only [Bool.false_eq_true, if_false, closes, Option.bind_some, Nat.add_assoc] at size ⊢
      rw [← size, onward, whole, List.take_left, List.drop_left]

@[simp] theorem written_nil : written [] = [] := rfl

@[simp] theorem written_cons (piece : Piece) (pieces : List Piece) :
    written (piece :: pieces) = piece.written ++ written pieces := rfl

@[simp] theorem commented_nil : commented [] = [] := rfl

@[simp] theorem commented_cons (piece : Piece) (pieces : List Piece) :
    commented (piece :: pieces) = piece.commented ++ commented pieces := rfl

@[simp] theorem commented_append (first second : List Piece) :
    commented (first ++ second) = commented first ++ commented second := List.flatMap_append

/-- Plain characters are the same in both lines. -/
@[simp] theorem written_plain (text : List Char) : written (text.map .plain) = text := by
  simp [written, List.flatMap_map, Piece.written]

@[simp] theorem commented_plain (text : List Char) : commented (text.map .plain) = text := by
  simp [commented, List.flatMap_map, Piece.commented]

/-- Putting parts of a line in comments does so with its pieces. -/
theorem commented_piecesAt (spans : List Span) (offset : Nat) (line : List Char) :
    commented (piecesAt spans offset line) = wrapSpans spans offset line := by
  induction spans generalizing offset line with
  | nil => simp [piecesAt, wrapSpans]
  | cons span spans inductionHypothesis =>
    rw [piecesAt, wrapSpans, commented_append, commented_plain, commented_cons, inductionHypothesis]
    simp [Piece.commented]

/-- There are no calls in plain characters. -/
theorem spansOf_plain (offset : Nat) (text : List Char) : spansOf offset (text.map .plain) = [] := by
  induction text generalizing offset with
  | nil => rfl
  | cons c text inductionHypothesis => exact inductionHypothesis (offset + 1)

/-- The calls of pieces stand from the offset on. -/
theorem le_of_mem_spansOf {offset : Nat} {pieces : List Piece} :
    ∀ span ∈ spansOf offset pieces, offset ≤ span.start ∧ span.start ≤ span.stop := by
  induction pieces generalizing offset with
  | nil => simp [spansOf]
  | cons piece pieces inductionHypothesis =>
    intro span member
    cases piece with
    | plain c =>
      have behind := inductionHypothesis span member
      exact ⟨Nat.le_of_succ_le behind.1, behind.2⟩
    | call text =>
      rcases List.mem_cons.mp member with rfl | later
      · exact ⟨Nat.le_refl _, Nat.le_add_right _ _⟩
      · have behind := inductionHypothesis span later
        exact ⟨Nat.le_trans (Nat.le_add_right _ _) behind.1, behind.2⟩

/-- A character before all calls is a piece of its own. -/
theorem piecesAt_cons {spans : List Span} {offset : Nat}
    (behind : ∀ span ∈ spans, offset + 1 ≤ span.start ∧ span.start ≤ span.stop) (c : Char)
    (line : List Char) :
    piecesAt spans offset (c :: line) = .plain c :: piecesAt spans (offset + 1) line := by
  cases spans with
  | nil => rfl
  | cons span spans =>
    have order := behind span List.mem_cons_self
    have start : span.start - offset = span.start - (offset + 1) + 1 := by omega
    have stop : span.stop - offset = span.stop - (offset + 1) + 1 := by omega
    rw [piecesAt, piecesAt, start, stop]
    rfl

/-- Pieces are found again by where their calls stand. -/
theorem piecesAt_spansOf (offset : Nat) (pieces : List Piece) :
    piecesAt (spansOf offset pieces) offset (written pieces) = pieces := by
  induction pieces generalizing offset with
  | nil => rfl
  | cons piece pieces inductionHypothesis =>
    rw [written_cons]
    cases piece with
    | plain c =>
      rw [spansOf, Piece.written, List.singleton_append, piecesAt_cons le_of_mem_spansOf,
        inductionHypothesis]
    | call text =>
      rw [spansOf, piecesAt]
      simp [Piece.written, inductionHypothesis]

/-- Every line is read, and the calls that are found are those of its pieces. -/
theorem exists_reading (before text : List Char) :
    ∃ found, Reading before text found ∧ callsBehind before text = found.map (spansOf before.length) := by
  induction size : text.length using Nat.strong_induction_on generalizing before text with
  | h length inductionHypothesis =>
    cases text with
    | nil => exact ⟨some [], .done before, rfl⟩
    | cons c rest =>
      subst size
      by_cases passed : Passed before (c :: rest)
      · obtain ⟨found, reading, calls⟩ :=
          inductionHypothesis rest.length (Nat.lt_succ_self _) (c :: before) rest rfl
        refine ⟨_, reading.plain passed, ?_⟩
        rw [callsBehind, spansFrom_passed (.inr passed)]
        rw [callsBehind, List.length_cons] at calls
        rw [calls, Option.map_map]
        rfl
      · by_cases line : occursIn ['/', '/'] before = true
        · refine ⟨_, .inert (c :: rest) line, ?_⟩
          rw [callsBehind, spansFrom_inert _ line (Nat.zero_le _), Option.map_some, spansOf_plain]
        · have opens : Opens before (c :: rest) := by
            rw [Bool.not_eq_true] at line
            refine ⟨fun none => passed (.inl none), line, ?_⟩
            rw [← Bool.not_eq_true]
            exact fun behind => passed (.inr ⟨line, behind⟩)
          rw [callsBehind_opens opens]
          cases closes : callLength? (c :: rest) with
          | none => exact ⟨none, .leftOpen opens closes, rfl⟩
          | some length =>
            obtain ⟨call, others, whole, rfl, inner, last, shape, _⟩ := call_of_callLength? closes
            rw [whole] at opens closes ⊢
            have shorter : others.length < (c :: rest).length := by
              rw [whole, shape]
              simp
              omega
            obtain ⟨found, reading, calls⟩ :=
              inductionHypothesis others.length shorter (call.reverse ++ before) others rfl
            refine ⟨_, reading.call opens closes, ?_⟩
            have behind : (call.reverse ++ before).length = before.length + call.length := by
              rw [List.length_append, List.length_reverse, Nat.add_comm]
            rw [Option.bind_some, List.take_left, List.drop_left, calls, behind, Option.map_map,
              Option.map_map]
            rfl

/-- A character that is passed does not change which calls there are. -/
theorem callsBehind_passed {before rest : List Char} {c : Char} (passed : Passed before (c :: rest)) :
    callsBehind before (c :: rest) = callsBehind (c :: before) rest :=
  spansFrom_passed (.inr passed)

/-- Behind a line comment there are no calls. -/
theorem callsBehind_inert {before : List Char} (text : List Char)
    (line : occursIn ['/', '/'] before = true) : callsBehind before text = some [] :=
  spansFrom_inert text line (Nat.zero_le _)

/-- The pieces that are read are the text. -/
theorem Reading.written_eq {before text : List Char} {found : Option (List Piece)}
    (reading : Reading before text found) : ∀ pieces ∈ found, written pieces = text := by
  induction reading with
  | done before => simp
  | inert text line => simp
  | plain passed onward inductionHypothesis =>
    simp only [Option.mem_def, Option.map_eq_some_iff]
    rintro _ ⟨pieces, read, rfl⟩
    rw [written_cons, inductionHypothesis pieces read]
    rfl
  | call opens closes onward inductionHypothesis =>
    simp only [Option.mem_def, Option.map_eq_some_iff]
    rintro _ ⟨pieces, read, rfl⟩
    rw [written_cons, inductionHypothesis pieces read]
    rfl
  | leftOpen opens stays => simp

/-- The calls that are read are calls. -/
theorem Reading.isCall {before text : List Char} {found : Option (List Piece)}
    (reading : Reading before text found) :
    ∀ pieces ∈ found, ∀ call, .call call ∈ pieces → IsCall call := by
  induction reading with
  | done before => simp
  | inert text line => simp
  | plain passed onward inductionHypothesis =>
    simp only [Option.mem_def, Option.map_eq_some_iff]
    rintro _ ⟨pieces, read, rfl⟩ call member
    exact inductionHypothesis pieces read call (by simpa using member)
  | @call before text rest found opens closes onward inductionHypothesis =>
    simp only [Option.mem_def, Option.map_eq_some_iff]
    rintro _ ⟨pieces, read, rfl⟩ call member
    rcases List.mem_cons.mp member with same | later
    · obtain rfl : call = text := by simpa using same
      obtain ⟨taken, others, whole, size, shape⟩ := call_of_callLength? closes
      rwa [List.append_inj_left whole size.symm]
    · exact inductionHypothesis pieces read call later
  | leftOpen opens stays => simp

/-- A call is one of the calls of some pieces if it is a piece. -/
@[simp] theorem mem_filterMap_call? {call : List Char} {pieces : List Piece} :
    call ∈ pieces.filterMap Piece.call? ↔ .call call ∈ pieces := by
  rw [List.mem_filterMap]
  constructor
  · rintro ⟨_ | text, member, same⟩
    · cases same
    · cases same
      exact member
  · intro member
    exact ⟨_, member, rfl⟩

/-- A call is a part of the line. -/
theorem infix_written {call : List Char} {pieces : List Piece} (member : .call call ∈ pieces) :
    call <:+: written pieces := by
  obtain ⟨earlier, later, rfl⟩ := List.append_of_mem member
  refine ⟨written earlier, written later, ?_⟩
  simp [written, Piece.written]

/-- Whether there are calls does not depend on the offset. -/
theorem spansOf_eq_nil_iff (offset other : Nat) (pieces : List Piece) :
    spansOf offset pieces = [] ↔ spansOf other pieces = [] := by
  induction pieces generalizing offset other with
  | nil => rfl
  | cons piece pieces inductionHypothesis =>
    cases piece with
    | plain c => exact inductionHypothesis (offset + 1) (other + 1)
    | call text => simp [spansOf]

/-- What stands in the parts of the calls are the calls. -/
theorem map_of_spansOf (offset : Nat) (before : List Char) (size : before.length = offset)
    (pieces : List Piece) (behind : List Char) :
    (spansOf offset pieces).map (Span.of (before ++ (written pieces ++ behind))) =
      pieces.filterMap Piece.call? := by
  induction pieces generalizing offset before with
  | nil => rfl
  | cons piece pieces inductionHypothesis =>
    cases piece with
    | plain c =>
      have later := inductionHypothesis (offset + 1) (before ++ [c]) (by simp [size])
      simpa [Piece.written, Piece.call?, spansOf, List.filterMap_cons] using later
    | call text =>
      have later := inductionHypothesis (offset + text.length) (before ++ text) (by simp [size])
      have here : Span.of (before ++ (text ++ (written pieces ++ behind)))
          ⟨offset, offset + text.length⟩ = text := by
        simp [Span.of, ← size]
      rw [spansOf, List.map_cons, written_cons, Piece.written, List.append_assoc, here]
      simpa [Piece.call?, List.filterMap_cons] using later

/-- The pieces before the first call are plain characters. -/
theorem exists_first_call {offset : Nat} {pieces : List Piece} {span : Span} {spans : List Span}
    (found : spansOf offset pieces = span :: spans) :
    ∃ (gap call : List Char) (later : List Piece), pieces = gap.map .plain ++ .call call :: later ∧
      span.start = offset + gap.length := by
  induction pieces generalizing offset with
  | nil => cases found
  | cons piece pieces inductionHypothesis =>
    cases piece with
    | plain c =>
      obtain ⟨gap, call, later, rfl, start⟩ := inductionHypothesis found
      refine ⟨c :: gap, call, later, rfl, ?_⟩
      rw [List.length_cons]
      omega
    | call text =>
      obtain ⟨rfl, _⟩ := List.cons.inj found
      exact ⟨[], text, pieces, rfl, rfl⟩

/-- The comments make a line longer. -/
theorem length_commented (pieces : List Piece) (offset : Nat) :
    (commented pieces).length = (written pieces).length + 6 * (spansOf offset pieces).length := by
  induction pieces generalizing offset with
  | nil => rfl
  | cons piece pieces inductionHypothesis =>
    cases piece with
    | plain c =>
      have later := inductionHypothesis (offset + 1)
      simp only [commented_cons, written_cons, Piece.commented, Piece.written, spansOf, List.length_append,
        List.length_singleton] at later ⊢
      omega
    | call text =>
      have later := inductionHypothesis (offset + text.length)
      have marks : "/* ".toList.length = 3 ∧ " */".toList.length = 3 := by decide +kernel
      simp only [commented_cons, written_cons, Piece.commented, Piece.written, spansOf, List.length_append,
        List.length_cons] at later ⊢
      omega

/-- The calls of a line are those of its pieces. -/
theorem exists_pieces {line : List Char} {spans : List Span} (found : callSpans line = some spans) :
    ∃ pieces, Reading [] line (some pieces) ∧ spans = spansOf 0 pieces ∧ written pieces = line ∧
      piecesAt spans 0 line = pieces ∧ wrapSpans spans 0 line = commented pieces ∧
      spans.map (Span.of line) = pieces.filterMap Piece.call? := by
  obtain ⟨read, reading, calls⟩ := exists_reading [] line
  have same : some spans = read.map (spansOf 0) := found.symm.trans calls
  cases read with
  | none => cases same
  | some pieces =>
    obtain rfl := Option.some.inj same
    have whole := reading.written_eq pieces rfl
    have again := piecesAt_spansOf 0 pieces
    rw [whole] at again
    have parts := map_of_spansOf 0 [] rfl pieces []
    rw [List.append_nil, List.nil_append, whole] at parts
    refine ⟨pieces, reading, rfl, whole, again, ?_, parts⟩
    rw [← commented_piecesAt, again]

end Conformance.Fix
