import Conformance.Proofs.Fix.InsertedMarks
import Conformance.Proofs.Fix.NestedCalls

/-!
# Calls that end up in a comment

A call in code is in a comment of the output exactly if the calls of its line are put in comments and it is
one of them or inside one. That is told with what surrounds each place of the output. Marks around a call in
code are a comment; marks around a call in a quoted text stay in that text. The marks of the calls before a
place matter to it only if they change what surrounds it.
-/

namespace Conformance.Fix

open Text Surrounding

/-- A place of a line is in a comment when the line has its marks. What the line begins inside of is given. -/
def InComment (start : Surrounding) (parts : List Part) (place : Nat) : Prop :=
  ∃ first c second, parts = first ++ .own c :: second ∧ (unmarked first).length = place ∧
    (start.after (marked first)).isComment = true

/-- The marks of a comment around a call leave what is behind the call inside of the same. -/
def Unmoved (place : Surrounding) (call : List Char) : Prop :=
  place.after ("/* ".toList ++ call ++ " */".toList) = place.after call

/-- A call that begins and ends in code is not moved, if it does not hold the end of a comment. -/
theorem unmoved_code {call : List Char} (closable : ¬ ['*', '/'] <:+: call)
    (ends : Surrounding.code.after call = .code) : Unmoved .code call := by
  rw [Unmoved, code_after_comment closable, ends]

/-- In a quoted text nothing happens at a text that has neither a backslash nor the mark. -/
theorem quoted_after {mark : Char} {text : List Char} (escape : '\\' ∉ text) (other : mark ∉ text) :
    (quoted mark).after text = quoted mark := by
  induction text with
  | nil => rfl
  | cons c text inductionHypothesis =>
    rw [List.mem_cons, not_or] at escape other
    rw [after_cons, behind, if_neg (Ne.symm escape.1), if_neg (Ne.symm other.1),
      inductionHypothesis escape.2 other.2]

/-- A mark for quoted texts is in no mark of a comment. -/
theorem quote_not_mem {mark : Char} (quote : isQuote mark = true) {text : List Char}
    (plain : text.all (!isQuote ·) = true) : mark ∉ text := by
  intro member
  have unlike := List.all_eq_true.mp plain mark member
  rw [quote] at unlike
  cases unlike

/-- A call that begins and ends in quoted texts is not moved. -/
theorem unmoved_quoted {mark other : Char} {call : List Char} (quote : isQuote mark = true)
    (too : isQuote other = true) (ends : (quoted mark).after call = quoted other) :
    Unmoved (quoted mark) call := by
  rw [Unmoved, after_append, after_append, quoted_after (by decide) (quote_not_mem quote (by decide)), ends,
    quoted_after (by decide) (quote_not_mem too (by decide))]

/-- The character behind the first ones of a line is in one place. -/
theorem own_unique {first second others more : List Part} {c d : Char}
    (same : first ++ .own c :: others = second ++ .own d :: more)
    (size : (unmarked first).length = (unmarked second).length) : first = second := by
  induction first generalizing second with
  | nil =>
    cases second with
    | nil => rfl
    | cons part second =>
      obtain ⟨rfl, _⟩ := List.cons.inj same
      simp at size
  | cons part first inductionHypothesis =>
    cases second with
    | nil =>
      obtain ⟨rfl, _⟩ := List.cons.inj same
      simp at size
    | cons other second =>
      obtain ⟨rfl, onward⟩ := List.cons.inj same
      refine congrArg (part :: ·) (inductionHypothesis onward ?_)
      cases part <;> simpa using size

/-- Whether a place is in a comment is told by what surrounds it. -/
theorem inComment_iff {start : Surrounding} {first second : List Part} {c : Char} {place : Nat}
    (size : (unmarked first).length = place) :
    InComment start (first ++ .own c :: second) place ↔ (start.after (marked first)).isComment = true := by
  constructor
  · rintro ⟨other, d, more, same, here, comment⟩
    rwa [own_unique same (size.trans here.symm)]
  · exact fun comment => ⟨first, c, second, rfl, size, comment⟩

/-- In code the opening mark of a comment is the beginning of one. -/
theorem after_mark_of_isCode {place : Surrounding} (code : place.isCode = true) :
    place.after "/* ".toList = .blockComment ∨ place.after "/* ".toList = .lineComment := by
  cases place with
  | code => exact .inl (by decide)
  | stroke => exact .inr (by decide)
  | _ => cases code

/-- What an opening mark in code is in front of is in a comment. -/
theorem isComment_behind_mark {place : Surrounding} (code : place.isCode = true) {front : List Char}
    (closable : ¬ ['*', '/'] <:+: front) :
    ((place.after "/* ".toList).after front).isComment = true := by
  rcases after_mark_of_isCode code with opened | opened
  · rw [opened]
    rcases blockComment_after closable with inside | inside <;> rw [inside] <;> rfl
  · rw [opened, lineComment_after]
    rfl

/-- Where a call begins that is not in code, a mark in front of it does not put in a comment what is in
code. -/
theorem isCode_behind_mark {place : Surrounding} (well : place.wellQuoted = true)
    (outside : place.isCode = false) {others : List Char} (closable : ¬ ['*', '/'] <:+: 'c' :: others)
    (code : (place.after ('c' :: others)).isCode = true) :
    ((place.after "/* ".toList).after ('c' :: others)).isCode = true := by
  cases place with
  | code => cases outside
  | stroke => cases outside
  | quoted mark => rwa [quoted_after (by decide) (quote_not_mem well (by decide))]
  | escaped mark =>
    have notMark : 'c' ≠ mark := by
      rintro rfl
      exact absurd well (by decide)
    have stroke : (escaped mark).after "/* ".toList = (quoted mark).after "* ".toList := rfl
    rw [stroke, quoted_after (by decide) (quote_not_mem well (by decide)), after_cons, behind,
      if_neg (by decide), if_neg notMark]
    exact code
  | lineComment =>
    rw [lineComment_after] at code
    cases code
  | blockComment =>
    rcases blockComment_after closable with inside | inside <;> rw [inside] at code <;> cases code
  | star =>
    rw [after_cons] at code
    rcases blockComment_after (mt List.infix_cons closable) with inside | inside <;>
      rw [show star.behind 'c' = .blockComment from rfl, inside] at code <;> cases code

/-- Marks around calls that are not moved do not change what surrounds the place behind them. -/
theorem after_commented {start : Surrounding} {pieces : List Piece}
    (unmoved : ∀ earlier call later, pieces = earlier ++ .call call :: later →
      Unmoved (start.after (written earlier)) call) :
    start.after (commented pieces) = start.after (written pieces) := by
  induction pieces generalizing start with
  | nil => rfl
  | cons piece pieces inductionHypothesis =>
    have here : start.after piece.commented = start.after piece.written := by
      cases piece with
      | plain c => rfl
      | call text => exact unmoved [] text pieces rfl
    rw [commented_cons, written_cons, after_append, after_append, here]
    refine inductionHypothesis fun earlier call later split => ?_
    have later := unmoved (piece :: earlier) call later (by rw [split]; rfl)
    rwa [written_cons, after_append] at later

section Places

variable {start : Surrounding} {before front back rest : List Char} {earlier later : List Piece} {c : Char}

/-- On a line without marks a place is in a comment if it is in one already. -/
theorem inComment_own_iff :
    InComment start ((before ++ c :: rest).map .own) before.length ↔
      (start.after before).isComment = true := by
  rw [List.map_append, List.map_cons, inComment_iff (by rw [unmarked_own]), marked_own]

/-- A place outside the calls is in a comment if what is before it opens one. -/
theorem inComment_plain_iff :
    InComment start ((earlier ++ .plain c :: later).flatMap Piece.parts) (written earlier).length ↔
      (start.after (commented earlier)).isComment = true := by
  have split : (earlier ++ .plain c :: later).flatMap Piece.parts =
      earlier.flatMap Piece.parts ++ .own c :: later.flatMap Piece.parts := by
    simp [Piece.parts]
  rw [split, inComment_iff (by rw [unmarked_parts]), marked_parts]

/-- A place in a call is in a comment if the mark in front of the call opens one that is not closed before
the place. -/
theorem inComment_call_iff :
    InComment start ((earlier ++ .call (front ++ c :: back) :: later).flatMap Piece.parts)
        ((written earlier).length + front.length) ↔
      (((start.after (commented earlier)).after "/* ".toList).after front).isComment = true := by
  have split : (earlier ++ .call (front ++ c :: back) :: later).flatMap Piece.parts =
      (earlier.flatMap Piece.parts ++ .mark "/* ".toList :: front.map .own) ++
        .own c :: (back.map .own ++ .mark " */".toList :: later.flatMap Piece.parts) := by
    simp [Piece.parts]
  rw [split, inComment_iff]
  · rw [marked_append, marked_parts, marked_cons, marked_own, Part.shown, after_append, after_append]
  · simp [unmarked_parts]

end Places

/-- A place of a line is covered by a call that begins in code. -/
def CoveredInCode (start : Surrounding) (line : List Char) (spans : List Span) (place : Nat) : Prop :=
  ∃ span ∈ spans, span.start ≤ place ∧ place < span.stop ∧ (start.after (line.take span.start)).isCode = true

/-- The calls of a line are put in comments: one that is alone, or all of them if none holds the end of a
comment. -/
def Commentable (line : List Char) (spans : List Span) : Prop :=
  (∃ span, spans = [span] ∧ isAlone line span = true) ∨ ∀ span ∈ spans, ¬ ['*', '/'] <:+: span.of line

/-- At the beginning of a line that is not in code, the mark of a line comment changes nothing. -/
theorem after_line_mark {start : Surrounding} (begins : start.beginsLine = true)
    (outside : start.isCode = false) :
    start.after "// ".toList = start := by
  cases start with
  | quoted mark => exact quoted_after (by decide) (quote_not_mem begins (by decide))
  | blockComment => decide
  | code => cases outside
  | _ => cases begins

/-- In code the mark of a line comment begins one. -/
theorem after_line_mark_of_isCode {place : Surrounding} (code : place.isCode = true) :
    place.after "// ".toList = .lineComment := by
  cases place with
  | code => decide
  | stroke => decide
  | _ => cases code

/-- What is in code is not in a comment. -/
theorem not_isComment_of_isCode {place : Surrounding} (code : place.isCode = true) :
    place.isComment = false := by
  cases place <;> simp_all [isCode, isComment]

section Covering

variable {start : Surrounding} {before rest : List Char} {c : Char}

/-- A place in a call that is alone is in a comment if the mark in front of the call opens one that is not
closed before the place. -/
theorem inComment_lone_iff {indent front back : List Char} :
    InComment start (indent.map .own ++ .mark "// ".toList :: (front ++ c :: back).map .own)
        (indent.length + front.length) ↔
      (((start.after indent).after "// ".toList).after front).isComment = true := by
  have split : indent.map .own ++ .mark "// ".toList :: (front ++ c :: back).map .own =
      (indent.map .own ++ .mark "// ".toList :: front.map .own) ++ .own c :: back.map Part.own := by
    simp
  rw [split, inComment_iff]
  · rw [marked_append, marked_own, marked_cons, marked_own, Part.shown, after_append, after_append]
  · simp

/-- A call that is alone holds everything on its line that is no blank. -/
theorem exists_in_lone {line : List Char} {span : Span} (lone : loneCall? line = some span)
    (split : line = before ++ c :: rest) (visible : isBlank c = false) :
    ∃ indent front back, before = indent ++ front ∧
      span = ⟨indent.length, indent.length + (front ++ c :: back).length⟩ ∧ (∀ d ∈ indent, isBlank d = true) ∧
      markedLine line = indent.map .own ++ .mark "// ".toList :: (front ++ c :: back).map .own := by
  obtain ⟨indent, call, others, rfl, rfl, blank, _, trailing, parts⟩ := exists_lone lone
  obtain ⟨front, rfl⟩ := exists_behind_blanks blank visible split.symm
  rw [← List.append_assoc] at split
  obtain ⟨back, ends⟩ := exists_before_blanks trailing visible split.symm
  rw [List.append_assoc, List.append_cancel_left_eq] at ends
  subst ends
  exact ⟨indent, front, back, rfl, rfl, blank, parts⟩

/-- What is in code beside a call that is alone is in a comment of the output only if the call begins in
code. -/
theorem covered_of_lone {line : List Char} {span : Span} (lone : loneCall? line = some span)
    (begins : start.beginsLine = true) (split : line = before ++ c :: rest) (visible : isBlank c = false)
    (code : (start.after before).isCode = true)
    (inside : InComment start (markedLine line) before.length) :
    CoveredInCode start line [span] before.length := by
  obtain ⟨indent, front, back, rfl, rfl, blank, parts⟩ := exists_in_lone lone split visible
  have same := after_blanks begins blank
  refine ⟨_, List.mem_singleton_self _, ?_, ?_, ?_⟩
  · simp
  · simp
  · rw [split, List.append_assoc, List.take_left, same]
    by_contra outside
    rw [Bool.not_eq_true] at outside
    rw [parts, List.length_append, inComment_lone_iff, same, after_line_mark begins outside] at inside
    rw [after_append, same] at code
    rw [not_isComment_of_isCode code] at inside
    cases inside

/-- A call that is alone is in a comment of the output if it begins in code. -/
theorem inComment_of_lone {line : List Char} {span : Span} (lone : loneCall? line = some span) {place : Nat}
    (starts : span.start ≤ place) (stops : place < span.stop)
    (code : (start.after (line.take span.start)).isCode = true) :
    InComment start (markedLine line) place := by
  obtain ⟨indent, call, others, rfl, rfl, _, _, _, parts⟩ := exists_lone lone
  dsimp only at starts stops code
  obtain ⟨front, c, back, rfl, size⟩ : ∃ front c back, call = front ++ c :: back ∧
      front.length = place - indent.length := exists_split_at (by omega)
  obtain rfl : place = indent.length + front.length := by omega
  rw [List.take_left] at code
  rw [parts, inComment_lone_iff, after_line_mark_of_isCode code, lineComment_after]
  rfl

/-- The calls before a place that are put in block comments are not moved. -/
def UnmovedBefore (start : Surrounding) (line : List Char) (place : Nat) : Prop :=
  ∀ span ∈ blockCalls line, span.stop ≤ place → Unmoved (start.after (line.take span.start)) (span.of line)

/-- Calls that are not moved leave the place behind them inside of the same, when they are put in comments. -/
theorem UnmovedBefore.after_commented {line : List Char} {place : Nat}
    (unmoved : UnmovedBefore start line place) {earlier later : List Piece}
    (whole : written (earlier ++ later) = line)
    (spans : blockCalls line = spansOf 0 (earlier ++ later)) (behind : (written earlier).length ≤ place) :
    start.after (commented earlier) = start.after (written earlier) := by
  refine Fix.after_commented fun before call after split => ?_
  subst split
  have here := unmoved ⟨(written before).length, (written before).length + call.length⟩ (by
    rw [spans, mem_spansOf_iff]
    exact ⟨before, call, after ++ later, by simp, by simp⟩) (by
    refine Nat.le_trans ?_ behind
    simp [written, Piece.written])
  have split : line = written before ++ (call ++ written (after ++ later)) := by
    rw [← whole]
    simp [written, Piece.written]
  rwa [split, List.take_left, of_eq_call] at here

/-- The calls that are found on a line are all put in block comments. -/
structure SharedCalls (line : List Char) (spans : List Span) : Prop where
  found : callSpans line = some spans
  all : blockCalls line = spans
  marks : markedLine line = (piecesAt spans 0 line).flatMap Piece.parts
  closable : ∀ span ∈ spans, ¬ ['*', '/'] <:+: span.of line

/-- On a line whose calls are put in block comments, what is in code is in a comment of the output only if it
is covered by a call that begins in code. -/
theorem SharedCalls.covered {line : List Char} {spans : List Span} (shared : SharedCalls line spans)
    (begins : start.beginsLine = true) (unmoved : UnmovedBefore start line before.length)
    (split : line = before ++ c :: rest) (code : (start.after before).isCode = true)
    (inside : InComment start (markedLine line) before.length) :
    CoveredInCode start line spans before.length := by
  obtain ⟨found, all, marks, closable⟩ := shared
  obtain ⟨pieces, reading, rfl, whole, cut, _⟩ := exists_pieces found
  rw [marks, cut] at inside
  rcases piece_at (whole.trans split) with ⟨earlier, later, rfl, rfl, rfl⟩ |
    ⟨earlier, call, later, front, back, rfl, rfl, rfl, rfl⟩
  · rw [inComment_plain_iff, unmoved.after_commented whole all (Nat.le_refl _),
      not_isComment_of_isCode code] at inside
    cases inside
  · have member :
        (⟨(written earlier).length, (written earlier).length + (front ++ c :: back).length⟩ : Span) ∈
        spansOf 0 (earlier ++ .call (front ++ c :: back) :: later) := by
      rw [mem_spansOf_iff]
      exact ⟨earlier, _, later, rfl, by rw [Nat.zero_add]⟩
    have place : line = written earlier ++ (front ++ c :: back ++ written later) := by
      rw [← whole]
      simp [written, Piece.written]
    have behind : (written earlier).length ≤ (written earlier ++ front).length := by simp
    rw [List.length_append, inComment_call_iff, unmoved.after_commented whole all behind] at inside
    refine ⟨_, member, ?_, ?_, ?_⟩
    · simp
    · simp
    rw [place, List.take_left]
    rw [after_append] at code
    cases front with
    | nil => exact code
    | cons d front =>
      -- A call that does not begin in code keeps what is in code in it out of its marks.
      by_contra outside
      rw [Bool.not_eq_true] at outside
      obtain ⟨inner, last, shape, _⟩ := reading.isCall _ rfl _ (List.mem_append_right _ List.mem_cons_self)
      obtain ⟨rfl, _⟩ := List.cons.inj shape
      have free := closable _ member
      rw [place, of_eq_call] at free
      have kept := isCode_behind_mark (wellQuoted_after (wellQuoted_of_beginsLine begins) _) outside
        (fun within => free (within.trans (List.prefix_append _ _).isInfix)) code
      rw [not_isComment_of_isCode kept] at inside
      cases inside

/-- A call that is put in a block comment is in a comment of the output if it begins in code. -/
theorem SharedCalls.inComment {line : List Char} {spans : List Span} (shared : SharedCalls line spans)
    {span : Span} (member : span ∈ spans) (unmoved : UnmovedBefore start line span.start) {place : Nat}
    (starts : span.start ≤ place) (stops : place < span.stop)
    (code : (start.after (line.take span.start)).isCode = true) :
    InComment start (markedLine line) place := by
  obtain ⟨found, all, marks, closable⟩ := shared
  have free := closable span member
  obtain ⟨pieces, reading, rfl, whole, cut, _⟩ := exists_pieces found
  rw [marks, cut]
  obtain ⟨earlier, call, later, rfl, rfl⟩ := mem_spansOf_iff.mp member
  have split : line = written earlier ++ (call ++ written later) := by
    rw [← whole]
    simp [written, Piece.written]
  simp only [Nat.zero_add] at starts stops code unmoved free
  rw [split, List.take_left] at code
  rw [split, of_eq_call] at free
  obtain ⟨front, c, back, rfl, size⟩ : ∃ front c back, call = front ++ c :: back ∧
      front.length = place - (written earlier).length := exists_split_at (by omega)
  obtain rfl : place = (written earlier).length + front.length := by omega
  rw [inComment_call_iff, unmoved.after_commented whole all (Nat.le_refl _)]
  exact isComment_behind_mark code fun within => free (within.trans (List.prefix_append _ _).isInfix)

/-- A line has a call that is alone, or all its calls are put in block comments, or it stays as it is. -/
theorem markedLine_cases (line : List Char) :
    (∃ span, loneCall? line = some span) ∨ (∃ spans, SharedCalls line spans) ∨
      markedLine line = line.map .own := by
  cases lone : loneCall? line with
  | some span => exact .inl ⟨span, rfl⟩
  | none =>
    have marks : markedLine line = (piecesAt (blockCalls line) 0 line).flatMap Piece.parts := by
      rw [markedLine, lone]
    refine .inr ?_
    rcases blockCalls_cases line with none | ⟨found, _, _, closable⟩
    · refine .inr ?_
      rw [marks, none, piecesAt, parts_plain]
    · refine .inl ⟨_, found, rfl, marks, fun span member => ?_⟩
      rw [← occursIn_iff, closable span member]
      exact Bool.false_ne_true

/-- Calls that can be put in comments are put in block comments if none is alone. -/
theorem Commentable.shared {line : List Char} {spans : List Span} (commentable : Commentable line spans)
    (found : callSpans line = some spans) (plain : isCommentLine (trimLeft line) = false)
    (lone : loneCall? line = none) : SharedCalls line spans := by
  rcases commentable with ⟨span, rfl, alone⟩ | closable
  · rw [loneCall?_eq_some_iff.mpr ⟨plain, found, alone⟩] at lone
    cases lone
  · have all : blockCalls line = spans := by
      refine blockCalls_eq found plain lone fun span member => ?_
      rw [← Bool.not_eq_true, occursIn_iff]
      exact closable span member
    exact ⟨found, all, by rw [markedLine, lone, all], closable⟩

/-- **What is in code is in a comment of the output only if a call that begins in code covers it**, and the
calls of its line are put in comments. -/
theorem covered_of_inComment {line : List Char} (begins : start.beginsLine = true)
    (unmoved : UnmovedBefore start line before.length) (split : line = before ++ c :: rest)
    (visible : isBlank c = false) (code : (start.after before).isCode = true)
    (inside : InComment start (markedLine line) before.length) :
    ∃ spans, callSpans line = some spans ∧ Commentable line spans ∧
      CoveredInCode start line spans before.length := by
  rcases markedLine_cases line with ⟨span, lone⟩ | ⟨spans, shared⟩ | untouched
  · obtain ⟨_, found, alone⟩ := loneCall?_eq_some_iff.mp lone
    exact ⟨[span], found, .inl ⟨span, rfl, alone⟩, covered_of_lone lone begins split visible code inside⟩
  · exact ⟨spans, shared.found, .inr shared.closable, shared.covered begins unmoved split code inside⟩
  · rw [untouched, split, inComment_own_iff, not_isComment_of_isCode code] at inside
    cases inside

end Covering

section Calls

variable {start : Surrounding} {line before call behind : List Char}

/-- A call that is alone on its line holds every call on it. -/
theorem ClosedCall.within_lone (closed : ClosedCall call behind) (split : line = before ++ (call ++ behind))
    {span : Span} (lone : loneCall? line = some span) : before.length + call.length ≤ span.stop := by
  obtain ⟨taken, others, whole, size, inner, last, rfl, ends⟩ :=
    call_of_callLength? (closedCall_iff.mp closed)
  obtain rfl := List.append_inj_left whole size.symm
  have visible : isBlank last = false := by
    rcases ends with rfl | rfl <;> decide +kernel
  have place : line = before ++ ('c' :: inner) ++ last :: behind := by
    rw [split]
    simp
  obtain ⟨indent, front, back, same, rfl, _⟩ := exists_in_lone lone place visible
  have lengths := congrArg List.length same
  simp only [List.length_append, List.length_cons, List.length_nil] at lengths ⊢
  omega

/-- A call in code that is covered by a call in a block comment is in that comment. -/
theorem ClosedCall.within_shared (closed : ClosedCall call behind) (split : line = before ++ (call ++ behind))
    (code : (start.after before).isCode = true) {spans : List Span} (shared : SharedCalls line spans)
    {span : Span} (member : span ∈ spans) (starts : span.start ≤ before.length)
    (stops : before.length < span.stop) (begins : (start.after (line.take span.start)).isCode = true) :
    before.length + call.length ≤ span.stop := by
  have free := shared.closable span member
  obtain ⟨earlier, outer, later, whole, rfl, outside, _⟩ := exists_found shared.found member
  dsimp only at starts stops begins
  rw [whole, of_eq_call] at free
  rw [whole, List.take_left] at begins
  rw [whole] at split
  obtain ⟨front, rfl, onward⟩ :
      ∃ front, before = earlier ++ front ∧ outer ++ later = front ++ (call ++ behind) := by
    rcases List.append_eq_append_iff.mp split with ⟨front, rfl, onward⟩ | ⟨_ | ⟨c, gap⟩, rfl, onward⟩
    · exact ⟨front, rfl, onward⟩
    · exact ⟨[], by simp, onward.symm⟩
    · rw [List.length_append, List.length_cons] at starts
      omega
  rw [after_append] at code
  dsimp only
  rw [List.length_append] at stops ⊢
  have nested := outside.nested closed onward (by omega) free begins code
  omega

/-- **A call in code is in a comment of the output if a call that begins in code covers it**, and the calls of
its line are put in comments. -/
theorem inComment_of_covered (closed : ClosedCall call behind) (split : line = before ++ (call ++ behind))
    (plain : isCommentLine (trimLeft line) = false) (code : (start.after before).isCode = true)
    (unmoved : UnmovedBefore start line before.length) {spans : List Span}
    (found : callSpans line = some spans) (commentable : Commentable line spans)
    (covered : CoveredInCode start line spans before.length) {place : Nat} (here : before.length ≤ place)
    (within : place < before.length + call.length) :
    InComment start (markedLine line) place := by
  obtain ⟨span, member, starts, stops, begins⟩ := covered
  cases lone : loneCall? line with
  | some other =>
    obtain ⟨_, only, _⟩ := loneCall?_eq_some_iff.mp lone
    obtain rfl := Option.some.inj (found.symm.trans only)
    obtain rfl := List.mem_singleton.mp member
    have ends := closed.within_lone split lone
    exact inComment_of_lone lone (by omega) (by omega) begins
  | none =>
    have shared := commentable.shared found plain lone
    have ends := closed.within_shared split code shared member starts stops begins
    exact shared.inComment member (fun other among earlier => unmoved other among (earlier.trans starts))
      (by omega) (by omega) begins

/-- A call in code is covered by one that begins in code if an earlier one that covers it does, or no earlier
one covers it and it is found itself: no line comment is before it, and no opening of a comment directly
before it. -/
theorem coveredInCode_iff (closed : ClosedCall call behind) (split : line = before ++ (call ++ behind))
    (code : (start.after before).isCode = true) {spans : List Span} (found : callSpans line = some spans) :
    CoveredInCode start line spans before.length ↔
      (∃ span ∈ spans, span.start < before.length ∧ before.length < span.stop ∧
          (start.after (line.take span.start)).isCode = true) ∨
        (∀ span ∈ spans, span.start < before.length → span.stop ≤ before.length) ∧
          occursIn ['/', '/'] before = false ∧ endsWith "/* ".toList before = false := by
  have begun : callOpening? (call ++ behind) ≠ none := by
    have length := closedCall_iff.mp closed
    rw [callLength?] at length
    intro none
    rw [none] at length
    cases length
  obtain ⟨others, rfl⟩ := closed.exists_cons
  rw [List.cons_append] at split begun
  subst split
  constructor
  · rintro ⟨span, member, starts, stops, begins⟩
    rcases Nat.lt_or_eq_of_le starts with earlier | here
    · exact .inl ⟨span, member, earlier, stops, begins⟩
    · obtain ⟨_, _, noLine, apart⟩ := exists_found_at found member here
      refine .inr ⟨fun other among before => ?_, noLine, apart⟩
      obtain ⟨pieces, _, rfl, _⟩ := exists_pieces found
      rw [← here] at before ⊢
      exact stop_le_of_start_lt among member before
  · rintro (⟨span, member, earlier, stops, begins⟩ | ⟨uncovered, noLine, apart⟩)
    · exact ⟨span, member, Nat.le_of_lt earlier, stops, begins⟩
    · obtain ⟨span, member, starts, stops⟩ := (covered_iff found begun).mpr (.inl ⟨noLine, apart⟩)
      have here : span.start = before.length := by
        have earlier := uncovered span member
        omega
      refine ⟨span, member, starts, stops, ?_⟩
      rwa [here, List.take_left]

/-- **Which calls in code are in a comment of the output.** The lines of the output are those of the text with
their marks. Behind calls that are not moved by their marks, a call in code that is closed is in a comment
exactly if no call that is found on its line stays open, none of them holds the end of a comment or the only
one is alone, and it is inside an earlier one that begins in code, or inside none, with no two strokes
anywhere before it and no opening of a comment directly before it. -/
theorem call_in_comment_iff (text : List Char) (begins : start.beginsLine = true)
    (split : line = before ++ (call ++ behind)) (plain : isCommentLine (trimLeft line) = false)
    (code : (start.after before).isCode = true) (closed : ClosedCall call behind)
    (unmoved : UnmovedBefore start line before.length) :
    splitLines (commentConsole text) = (splitLines text).map (fun line => marked (markedLine line)) ∧
      ((∀ place, before.length ≤ place → place < before.length + call.length →
          InComment start (markedLine line) place) ↔
        ∃ spans, callSpans line = some spans ∧ Commentable line spans ∧
          ((∃ span ∈ spans, span.start < before.length ∧ before.length < span.stop ∧
              (start.after (line.take span.start)).isCode = true) ∨
            (∀ span ∈ spans, span.start < before.length → span.stop ≤ before.length) ∧
              occursIn ['/', '/'] before = false ∧ endsWith "/* ".toList before = false)) := by
  refine ⟨by simp only [splitLines_commentConsole, marked_markedLine], ?_⟩
  constructor
  · intro inside
    obtain ⟨others, rfl⟩ := closed.exists_cons
    have first := inside before.length (Nat.le_refl _) (by simp)
    have place : line = before ++ 'c' :: (others ++ behind) := split.trans (by rw [List.cons_append])
    obtain ⟨spans, found, commentable, covered⟩ :=
      covered_of_inComment begins unmoved place (by decide +kernel) code first
    exact ⟨spans, found, commentable, (coveredInCode_iff closed split code found).mp covered⟩
  · rintro ⟨spans, found, commentable, covered⟩ place here within
    exact inComment_of_covered closed split plain code unmoved found commentable
      ((coveredInCode_iff closed split code found).mpr covered) here within

/-- A call behind another one, which is put in a comment as well. -/
theorem call_in_comment_behind_another :
    UnmovedBefore .code "console.warn(0); console.log(f(1)); bar();".toList 17 ∧
      ClosedCall "console.log(f(1));".toList " bar();".toList ∧
      ∀ place, 17 ≤ place → place < 35 →
        InComment .code (markedLine "console.warn(0); console.log(f(1)); bar();".toList) place := by
  have unmoved : UnmovedBefore .code "console.warn(0); console.log(f(1)); bar();".toList 17 := by
    unfold UnmovedBefore Unmoved
    decide +kernel
  have closed : ClosedCall "console.log(f(1));".toList " bar();".toList :=
    closedCall_iff.mpr (by decide +kernel)
  have split : "console.warn(0); console.log(f(1)); bar();".toList =
      "console.warn(0); ".toList ++ ("console.log(f(1));".toList ++ " bar();".toList) := by
    decide +kernel
  have begins : Surrounding.code.beginsLine = true := rfl
  exact ⟨unmoved, closed, (call_in_comment_iff "console.warn(0); console.log(f(1)); bar();".toList begins
    split (by decide +kernel) (by decide +kernel) closed unmoved).2.mpr
      ⟨[⟨0, 16⟩, ⟨17, 35⟩], by decide +kernel, .inr (by decide +kernel), .inr (by decide +kernel)⟩⟩

/-- A call behind an address in a quoted text is left in use. -/
theorem call_behind_address_left :
    isCommentLine "fetch(\"http://x\"); console.log(1);".toList = false ∧
      (Surrounding.code.after "fetch(\"http://x\"); ".toList).isCode = true ∧
      ClosedCall "console.log(1);".toList [] ∧ ¬ ['*', '/'] <:+: "console.log(1);".toList ∧
      commentConsole "fetch(\"http://x\"); console.log(1);".toList =
        "fetch(\"http://x\"); console.log(1);".toList ∧
      ¬ InComment .code (markedLine "fetch(\"http://x\"); console.log(1);".toList) 19 := by
  refine ⟨by decide +kernel, by decide +kernel, closedCall_iff.mpr (by decide +kernel), by decide +kernel,
    by decide +kernel, ?_⟩
  have same : markedLine "fetch(\"http://x\"); console.log(1);".toList =
      ("fetch(\"http://x\"); ".toList ++ 'c' :: "onsole.log(1);".toList).map .own := by
    decide +kernel
  have outside : (Surrounding.code.after "fetch(\"http://x\"); ".toList).isComment = false := by
    decide +kernel
  rw [same, show 19 = "fetch(\"http://x\"); ".toList.length by decide +kernel, inComment_own_iff, outside]
  exact Bool.false_ne_true

end Calls

end Conformance.Fix
