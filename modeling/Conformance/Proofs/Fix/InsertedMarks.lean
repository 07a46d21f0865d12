import Conformance.Proofs.Fix.FoundCalls
import Conformance.Proofs.Fix.Recommenting
import Mathlib.Data.List.Forall2

/-!
# The marks that are inserted

A commented line is the line itself with marks of comments inserted into it: one in front of a call that
is alone on its line, or two around each call that shares its line with other code. Where the marks
stand is told by tagging what is the line's own, so nothing has to be said about positions. A line with
its tags is the commented line when everything is written down, and the line when the marks are left out.
-/

namespace Conformance.Fix

open Text

/-- A part of a commented line: a character of the line's own, or an inserted mark. -/
inductive Part where
  | own (c : Char)
  | mark (text : List Char)
  deriving Repr, DecidableEq

/-- What a part is in the commented line. -/
def Part.shown : Part → List Char
  | .own c => [c]
  | .mark text => text

/-- What a part is in the line itself. -/
def Part.own? : Part → Option Char
  | .own c => some c
  | .mark _ => none

/-- The commented line. -/
def marked (parts : List Part) : List Char := parts.flatMap Part.shown

/-- The line without the inserted marks. -/
def unmarked (parts : List Part) : List Char := parts.filterMap Part.own?

/-- A piece of a line, a call with the marks around it. -/
def Piece.parts : Piece → List Part
  | .plain c => [.own c]
  | .call text => .mark "/* ".toList :: (text.map .own ++ [.mark " */".toList])

/-- The call that is alone on a line. -/
def loneCall? (line : List Char) : Option Span :=
  match callSpans line with
  | some [span] => if !isCommentLine (trimLeft line) && isAlone line span then some span else none
  | _ => none

/-- The calls of a line that are put in block comments. -/
def blockCalls (line : List Char) : List Span :=
  match callSpans line with
  | none => []
  | some spans =>
    if isCommentLine (trimLeft line) || (loneCall? line).isSome ||
        spans.any (fun span => occursIn ['*', '/'] (span.of line)) then []
    else spans

/-- A line with the marks that are inserted into it. -/
def markedLine (line : List Char) : List Part :=
  match loneCall? line with
  | some span => (line.take span.start).map .own ++ .mark "// ".toList :: (span.of line).map .own
  | none => (piecesAt (blockCalls line) 0 line).flatMap Piece.parts

@[simp] theorem marked_nil : marked [] = [] := rfl

@[simp] theorem marked_cons (part : Part) (parts : List Part) :
    marked (part :: parts) = part.shown ++ marked parts := rfl

@[simp] theorem marked_append (first second : List Part) :
    marked (first ++ second) = marked first ++ marked second := List.flatMap_append

@[simp] theorem marked_own (text : List Char) : marked (text.map .own) = text := by
  simp [marked, List.flatMap_map, Part.shown]

@[simp] theorem unmarked_nil : unmarked [] = [] := rfl

@[simp] theorem unmarked_cons_own (c : Char) (parts : List Part) :
    unmarked (.own c :: parts) = c :: unmarked parts := rfl

@[simp] theorem unmarked_cons_mark (text : List Char) (parts : List Part) :
    unmarked (.mark text :: parts) = unmarked parts := rfl

@[simp] theorem unmarked_append (first second : List Part) :
    unmarked (first ++ second) = unmarked first ++ unmarked second := List.filterMap_append

@[simp] theorem unmarked_own (text : List Char) : unmarked (text.map .own) = text := by
  induction text with
  | nil => rfl
  | cons c text inductionHypothesis => rw [List.map_cons, unmarked_cons_own, inductionHypothesis]

/-- Pieces with the marks around their calls are the line with its calls in comments. -/
theorem marked_parts (pieces : List Piece) : marked (pieces.flatMap Piece.parts) = commented pieces := by
  induction pieces with
  | nil => rfl
  | cons piece pieces inductionHypothesis =>
    rw [List.flatMap_cons, marked_append, inductionHypothesis, commented_cons]
    cases piece with
    | plain c => rfl
    | call text => simp [Piece.parts, Piece.commented, Part.shown]

/-- Without the marks pieces are the line. -/
theorem unmarked_parts (pieces : List Piece) : unmarked (pieces.flatMap Piece.parts) = written pieces := by
  induction pieces with
  | nil => rfl
  | cons piece pieces inductionHypothesis =>
    rw [List.flatMap_cons, unmarked_append, inductionHypothesis, written_cons]
    cases piece with
    | plain c => rfl
    | call text => simp [Piece.parts, Piece.written]

/-- The calls that are put in block comments are all that are found, on a line that is no comment and
whose calls are neither alone nor close their own comments. -/
theorem blockCalls_cases (line : List Char) :
    blockCalls line = [] ∨ callSpans line = some (blockCalls line) ∧
      isCommentLine (trimLeft line) = false ∧ loneCall? line = none ∧
      ∀ span ∈ blockCalls line, occursIn ['*', '/'] (span.of line) = false := by
  rw [blockCalls]
  cases callSpans line with
  | none => exact .inl rfl
  | some spans =>
    dsimp only
    split
    · exact .inl rfl
    · next decided =>
      simp only [Bool.or_eq_true, not_or, Bool.not_eq_true, List.any_eq_false, Option.isSome_eq_false_iff,
        Option.isNone_iff_eq_none] at decided
      exact .inr ⟨rfl, decided.1.1, decided.1.2, decided.2⟩

/-- The calls of a line are put in block comments if none of them is alone or closes its own comment. -/
theorem blockCalls_eq {line : List Char} {spans : List Span} (found : callSpans line = some spans)
    (code : isCommentLine (trimLeft line) = false) (lone : loneCall? line = none)
    (closable : ∀ span ∈ spans, occursIn ['*', '/'] (span.of line) = false) : blockCalls line = spans := by
  rw [blockCalls, found]
  dsimp only
  rw [code, lone, Option.isSome_none, Bool.false_or, Bool.false_or, if_neg]
  rw [Bool.not_eq_true, List.any_eq_false]
  intro span member
  rw [closable span member]
  exact Bool.false_ne_true

/-- The call that is alone is the only one on a line that is no comment. -/
theorem loneCall?_eq_some_iff {line : List Char} {span : Span} :
    loneCall? line = some span ↔ isCommentLine (trimLeft line) = false ∧
      callSpans line = some [span] ∧ isAlone line span = true := by
  rw [loneCall?]
  split
  · next other found => grind
  · next spans => grind

/-- A line without a call that is alone gets block comments only. -/
theorem commentLine_of_loneCall?_eq_none {line : List Char} (lone : loneCall? line = none) :
    commentLine line = wrapSpans (blockCalls line) 0 line := by
  by_cases comment : isCommentLine (trimLeft line) = true
  · have none : blockCalls line = [] := by
      rw [blockCalls]
      split <;> simp [comment]
    rw [commentLine_of_comment comment, none]
    rfl
  · rw [Bool.not_eq_true] at comment
    rw [commentLine, blockCalls, lone, comment]
    cases found : callSpans line with
    | none => rfl
    | some spans =>
      rcases spans with _ | ⟨span, _ | ⟨second, others⟩⟩
      · rfl
      · have notAlone : isAlone line span = false := by
          simpa [loneCall?, found, comment] using lone
        simp only [notAlone, commentSpans, Bool.false_eq_true, if_false, Option.isSome_none, Bool.false_or]
        split <;> rfl
      · simp only [commentSpans, Bool.false_eq_true, if_false, Option.isSome_none, Bool.false_or]
        split <;> rfl

/-- Everything written down, the marks included, is the commented line. -/
theorem marked_markedLine (line : List Char) : marked (markedLine line) = commentLine line := by
  rw [markedLine]
  cases lone : loneCall? line with
  | some span =>
    obtain ⟨code, found, alone⟩ := loneCall?_eq_some_iff.mp lone
    rw [commentLine, code, found]
    simp only [Bool.false_eq_true, if_false, alone, if_true, marked_append, marked_own, marked_cons,
      Part.shown, List.append_assoc]
  | none => rw [marked_parts, commented_piecesAt, commentLine_of_loneCall?_eq_none lone]

/-- How a line is commented: not at all, in front of a call that is alone on it, or around some of its
calls, one behind the other. -/
inductive Commenting : (line : List Char) → List Part → Prop where
  | untouched (line : List Char) : Commenting line (line.map .own)
  | alone {indent call rest : List Char} (before : ∀ c ∈ indent, isBlank c = true)
      (closed : ClosedCall call rest) (behind : ∀ c ∈ rest, isBlank c = true) :
      Commenting (indent ++ (call ++ rest)) (indent.map .own ++ .mark "// ".toList :: call.map .own)
  | shared {pieces : List Piece} (filled : ∃ call, .call call ∈ pieces)
      (closed : ∀ earlier call later, pieces = earlier ++ .call call :: later →
        ClosedCall call (written later) ∧ ¬ ['*', '/'] <:+: call) :
      Commenting (written pieces) (pieces.flatMap Piece.parts)

/-- A call ends with a mark of its own, so it has no blank at its end. -/
theorem ClosedCall.trimRight_eq {call rest : List Char} (closed : ClosedCall call rest)
    (before : List Char) : trimRight (before ++ call) = before ++ call := by
  obtain ⟨taken, others, whole, size, inner, last, rfl, ends⟩ :=
    call_of_callLength? (closedCall_iff.mp closed)
  obtain rfl := List.append_inj_left whole size.symm
  refine trimRight_eq_self fun c final => ?_
  rw [← List.cons_append, ← List.append_assoc, List.getLast?_concat] at final
  rcases ends with rfl | rfl <;> cases final <;> decide

/-- Plain characters bring no marks. -/
theorem parts_plain (text : List Char) : (text.map .plain).flatMap Piece.parts = text.map .own := by
  rw [List.flatMap_map, List.map_eq_flatMap]
  rfl

/-- A call that is alone stands between blanks, with one mark in front of it. -/
theorem exists_lone {line : List Char} {span : Span} (lone : loneCall? line = some span) :
    ∃ indent call rest, line = indent ++ (call ++ rest) ∧
      span = ⟨indent.length, indent.length + call.length⟩ ∧ (∀ c ∈ indent, isBlank c = true) ∧
      ClosedCall call rest ∧ (∀ c ∈ rest, isBlank c = true) ∧
      markedLine line = indent.map .own ++ .mark "// ".toList :: call.map .own := by
  obtain ⟨_, found, alone⟩ := loneCall?_eq_some_iff.mp lone
  obtain ⟨indent, call, rest, rfl, rfl, closed, _⟩ := exists_found found List.mem_cons_self
  simp only [isAlone, Bool.and_eq_true, List.isEmpty_iff, trim_eq_nil_iff, List.take_left,
    ← List.drop_drop, List.drop_left] at alone
  refine ⟨indent, call, rest, rfl, rfl, alone.1, closed, alone.2, ?_⟩
  rw [markedLine, lone]
  dsimp only
  rw [of_eq_call, List.take_left]

/-- The calls that are found are marked in one of the three ways. -/
theorem commenting_markedLine (line : List Char) : Commenting line (markedLine line) := by
  cases lone : loneCall? line with
  | some span =>
    obtain ⟨indent, call, rest, rfl, _, blank, closed, trailing, parts⟩ := exists_lone lone
    rw [parts]
    exact .alone blank closed trailing
  | none =>
    rw [markedLine, lone]
    dsimp only
    rcases blockCalls_cases line with none | ⟨found, _, _, closable⟩
    · rw [none, piecesAt, parts_plain]
      exact .untouched line
    · obtain ⟨pieces, reading, spans, whole, cut, _, parts⟩ := exists_pieces found
      rw [cut]
      by_cases filled : ∃ call, .call call ∈ pieces
      · conv => rw [← whole]
        refine .shared filled fun earlier call later split => ?_
        refine ⟨(reading.opens _ rfl earlier call later split).2, ?_⟩
        have member : Piece.call call ∈ pieces := split ▸ List.mem_append_right _ List.mem_cons_self
        obtain ⟨span, among, rfl⟩ := List.mem_map.mp (parts ▸ mem_filterMap_call?.mpr member)
        rw [← occursIn_iff, closable span among]
        exact Bool.false_ne_true
      · have none : blockCalls line = [] := by
          rw [List.eq_nil_iff_forall_not_mem, spans]
          intro span member
          obtain ⟨earlier, call, later, rfl, _⟩ := mem_spansOf_iff.mp member
          exact filled ⟨call, List.mem_append_right _ List.mem_cons_self⟩
        rw [← cut, none, piecesAt, parts_plain]
        exact .untouched line

/-- Without the marks a commented line is the line, perhaps without its trailing blanks. -/
theorem Commenting.unmarked_eq {line : List Char} {parts : List Part} (commenting : Commenting line parts) :
    unmarked parts = line ∨ unmarked parts = trimRight line := by
  cases commenting with
  | untouched => exact .inl (unmarked_own line)
  | @alone indent call rest before closed behind =>
    refine .inr ?_
    rw [← List.append_assoc, trimRight_append_of_blank behind, closed.trimRight_eq indent]
    simp
  | shared filled closed => exact .inl (unmarked_parts _)

/-- A mark stands behind the characters that are known to be the line's own. -/
theorem mark_behind_own {text mark : List Char} {rest earlier later : List Part}
    (split : text.map .own ++ rest = earlier ++ .mark mark :: later) :
    ∃ others, earlier = text.map .own ++ others ∧ rest = others ++ .mark mark :: later := by
  induction text generalizing earlier with
  | nil => exact ⟨earlier, rfl, split⟩
  | cons c text inductionHypothesis =>
    rcases List.cons_eq_append_iff.mp split with ⟨_, impossible⟩ | ⟨others, rfl, behind⟩
    · cases impossible
    · obtain ⟨others, rfl, rfl⟩ := inductionHypothesis behind
      exact ⟨others, rfl, rfl⟩

/-- A mark stands no earlier than the first one. -/
theorem first_mark {text mark other : List Char} {rest earlier later : List Part}
    (split : text.map .own ++ .mark mark :: rest = earlier ++ .mark other :: later) :
    earlier = text.map .own ∧ mark = other ∧ rest = later ∨
      ∃ others, earlier = text.map .own ++ .mark mark :: others ∧ rest = others ++ .mark other :: later := by
  obtain ⟨others, rfl, behind⟩ := mark_behind_own split
  rcases List.cons_eq_append_iff.mp behind with ⟨rfl, same⟩ | ⟨others, rfl, further⟩
  · cases same
    exact .inl ⟨List.append_nil _, rfl, rfl⟩
  · exact .inr ⟨others, rfl, further⟩

/-- A mark around calls is in front of one of them or behind it. -/
theorem mark_parts {pieces : List Piece} {earlier later : List Part} {text : List Char}
    (split : pieces.flatMap Piece.parts = earlier ++ .mark text :: later) :
    ∃ before call after, pieces = before ++ .call call :: after ∧
      (text = "/* ".toList ∧ earlier = before.flatMap Piece.parts ∧
          later = call.map .own ++ .mark " */".toList :: after.flatMap Piece.parts ∨
        text = " */".toList ∧
          earlier = before.flatMap Piece.parts ++ .mark "/* ".toList :: call.map .own ∧
          later = after.flatMap Piece.parts) := by
  induction pieces generalizing earlier with
  | nil => simp at split
  | cons piece pieces inductionHypothesis =>
    rw [List.flatMap_cons] at split
    cases piece with
    | plain c =>
      rcases List.cons_eq_append_iff.mp split with ⟨_, impossible⟩ | ⟨others, rfl, behind⟩
      · cases impossible
      · obtain ⟨before, call, after, rfl, place⟩ := inductionHypothesis behind
        refine ⟨.plain c :: before, call, after, rfl, ?_⟩
        rcases place with ⟨rfl, rfl, rfl⟩ | ⟨rfl, rfl, rfl⟩
        · exact .inl ⟨rfl, rfl, rfl⟩
        · exact .inr ⟨rfl, rfl, rfl⟩
    | call call =>
      rw [Piece.parts, List.cons_append, List.append_assoc, List.singleton_append] at split
      rcases List.cons_eq_append_iff.mp split with ⟨rfl, same⟩ | ⟨others, rfl, behind⟩
      · cases same
        exact ⟨[], call, pieces, rfl, .inl ⟨rfl, rfl, rfl⟩⟩
      · rcases first_mark behind with ⟨rfl, rfl, rfl⟩ | ⟨others, rfl, further⟩
        · exact ⟨[], call, pieces, rfl, .inr ⟨rfl, rfl, rfl⟩⟩
        · obtain ⟨before, later, after, rfl, place⟩ := inductionHypothesis further
          refine ⟨.call call :: before, later, after, rfl, ?_⟩
          rcases place with ⟨rfl, rfl, rfl⟩ | ⟨rfl, rfl, rfl⟩
          · exact .inl ⟨rfl, by simp [Piece.parts], rfl⟩
          · exact .inr ⟨rfl, by simp [Piece.parts], rfl⟩

/-- A comment that is put around a call is not closed before its own end. -/
theorem Commenting.stays_open {line call : List Char} {parts earlier later : List Part}
    (commenting : Commenting line parts)
    (split : parts = earlier ++ .mark "/* ".toList :: (call.map .own ++ .mark " */".toList :: later)) :
    ¬ ['*', '/'] <:+: ' ' :: call ++ [' ', '*'] := by
  have here : Part.mark "/* ".toList ∈ parts := split ▸ List.mem_append_right _ List.mem_cons_self
  cases commenting with
  | untouched => simp at here
  | alone before closed behind =>
    simp at here
  | shared filled closed =>
    obtain ⟨before, other, after, rfl, ⟨_, _, same⟩ | ⟨impossible, _⟩⟩ := mark_parts split
    · rcases first_mark same with ⟨run, _⟩ | ⟨others, run, _⟩
      · obtain rfl : call = other := List.map_injective_iff.mpr (fun _ _ => Part.own.inj) run.symm
        obtain ⟨_, free⟩ := closed before call after rfl
        rw [List.cons_append, List.infix_cons_iff, infix_append_cons_iff (by decide) (by decide)]
        rintro (begins | within | within)
        · exact absurd (List.cons_prefix_cons.mp begins).1 (by decide)
        · exact free within
        · exact absurd within (by decide)
      · have member : Part.mark " */".toList ∈ other.map Part.own := by simp [run]
        simp at member
    · exact absurd impossible (by decide)

/-- The lines of a commented text are the commented lines. -/
theorem splitLines_commentConsole (text : List Char) :
    splitLines (commentConsole text) = (splitLines text).map commentLine := by
  refine splitLines_joinLines (mt List.map_eq_nil_iff.mp (splitAt_ne_nil text)) ?_
  simpa using fun line (member : line ∈ splitLines text) =>
    feed_not_mem_commentLine (not_mem_of_mem_splitAt member)

/-- **Commenting brings marks of comments into lines and changes nothing else.** Every line stays as it is,
or has a line comment put in front of a call that is alone on it, or block comments around calls one behind
the other; without the marks it is the line again, up to trailing blanks, and no block comment is closed
before its own end. -/
theorem commentConsole_inserts (text : List Char) :
    List.Forall₂ (fun line output => ∃ parts, marked parts = output ∧ Commenting line parts ∧
        (unmarked parts = line ∨ unmarked parts = trimRight line) ∧
        ∀ earlier call later,
          parts = earlier ++ .mark "/* ".toList :: (call.map .own ++ .mark " */".toList :: later) →
            ¬ ['*', '/'] <:+: ' ' :: call ++ [' ', '*'])
      (splitLines text) (splitLines (commentConsole text)) := by
  rw [splitLines_commentConsole, List.forall₂_map_right_iff, List.forall₂_same]
  intro line _
  have commenting := commenting_markedLine line
  exact ⟨markedLine line, marked_markedLine line, commenting, commenting.unmarked_eq,
    fun _ _ _ => commenting.stays_open⟩

end Conformance.Fix
