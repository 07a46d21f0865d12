import Conformance.Proofs.Fix.SecondReading
import Conformance.Proofs.Text.Parts

/-!
# Commenting a second time

A second pass leaves most lines as the first one left them: comment lines, lines that are left alone, and
those on which no call is inside another one. It puts a comment into a comment exactly if a line shares
its calls with other code in front of them and one of them holds another call, with no line comment
before it, while none holds one that is left open.
-/

namespace Conformance.Fix

open Text

/-- A second pass puts comments into comments on a line: its calls share it with other code in front of
them and are put in comments, some live call holds another one, and none holds one that is left open. -/
def Reopens (line : List Char) : Prop :=
  isCommentLine (trimLeft line) = false ∧ ∃ spans, callSpans line = some spans ∧
    (∀ span ∈ spans.head?, trim (line.take span.start) ≠ []) ∧
    (∀ span ∈ spans, occursIn ['*', '/'] (span.of line) = false) ∧
    (∀ call, LiveIn [] (piecesAt spans 0 line) call → callSpans call.tail ≠ none) ∧
    ∃ call, LiveIn [] (piecesAt spans 0 line) call ∧ callSpans call.tail ≠ some []

/-- A comment line stays as it is. -/
theorem commentLine_of_comment {line : List Char} (comment : isCommentLine (trimLeft line) = true) :
    commentLine line = line := by
  rw [commentLine, if_pos comment]

/-- A line without calls that can be commented out stays as it is. -/
theorem commentLine_of_none {line : List Char} (none : ∀ spans ∈ callSpans line, spans = []) :
    commentLine line = line := by
  rw [commentLine]
  split
  · rfl
  · split
    · rfl
    · rfl
    · next found => exact absurd (none _ found) (List.cons_ne_nil _ _)
    · next other _ found => exact absurd (none _ found) other

/-- A call that would close its own comment leaves the line as it is. -/
theorem commentSpans_eq_self {line : List Char} {spans : List Span}
    (closes : ∃ span ∈ spans, occursIn ['*', '/'] (span.of line) = true) :
    commentSpans line spans = line := by
  rw [commentSpans, if_pos (List.any_eq_true.mpr closes)]

/-- Other calls are put in comments. -/
theorem commentSpans_eq_wrapSpans {line : List Char} {spans : List Span}
    (closable : ∀ span ∈ spans, occursIn ['*', '/'] (span.of line) = false) :
    commentSpans line spans = wrapSpans spans 0 line := by
  rw [commentSpans, if_neg]
  rw [List.any_eq_true]
  rintro ⟨span, member, closes⟩
  rw [closable span member] at closes
  cases closes

/-- Calls with other code in front of them are put in comments. -/
theorem commentLine_of_shared {line : List Char} {span : Span} {spans : List Span}
    (code : isCommentLine (trimLeft line) = false) (found : callSpans line = some (span :: spans))
    (shared : trim (line.take span.start) ≠ []) :
    commentLine line = commentSpans line (span :: spans) := by
  have notAlone : isAlone line span = false := by
    simp [isAlone, shared]
  rw [commentLine, code, found]
  cases spans with
  | nil =>
    dsimp only
    rw [notAlone]
    rfl
  | cons other spans => rfl

/-- A line whose first call has blanks only in front of it is a comment line afterwards, or stays as it
is. -/
theorem comment_of_blank {line : List Char} {span : Span} {spans : List Span}
    (found : callSpans line = some (span :: spans)) (blank : trim (line.take span.start) = []) :
    commentLine line = line ∨ isCommentLine (trimLeft (commentLine line)) = true := by
  rw [trim_eq_nil_iff] at blank
  have wrapped : commentSpans line (span :: spans) = line ∨
      isCommentLine (trimLeft (commentSpans line (span :: spans))) = true := by
    rw [commentSpans]
    split
    · exact .inl rfl
    · refine .inr ?_
      rw [wrapSpans, Nat.sub_zero, List.append_assoc, List.append_assoc, List.append_assoc,
        trimLeft_append_of_blank blank]
      rfl
  rw [commentLine, found]
  split
  · exact .inl rfl
  · cases spans with
    | nil =>
      dsimp only
      split
      · refine .inr ?_
        rw [List.append_assoc, trimLeft_append_of_blank blank]
        rfl
      · exact wrapped
    | cons other spans => exact wrapped

/-- A line on which calls are left alone stays as it is. -/
theorem commentLine_of_leftAlone {line : List Char} (left : LeftAlone line (callSpans line)) :
    commentLine line = line := by
  have stays {spans : List Span} (found : callSpans line = some spans) : commentSpans line spans = line := by
    obtain ⟨span, member, closes, _⟩ := left spans found
    exact commentSpans_eq_self ⟨span, member, closes⟩
  rw [commentLine]
  split
  · rfl
  · split
    · rfl
    · rfl
    · next span found =>
      obtain ⟨other, member, _, code⟩ := left _ found
      obtain rfl := List.mem_singleton.mp member
      have notAlone : isAlone line other = false := by
        have shared : trim (line.take other.start) ≠ [] := by
          rw [Ne, trim_eq_nil_iff]
          exact fun blank => absurd (blank 'c' code) (by decide)
        simp [isAlone, shared]
      rw [notAlone]
      exact stays found
    · next found => exact stays found

/-- A line that the first pass has left alone, or made a comment line, stays as it is. -/
theorem commentLine_settled {line : List Char}
    (settled : commentLine line = line ∨ isCommentLine (trimLeft (commentLine line)) = true) :
    commentLine (commentLine line) = commentLine line := by
  rcases settled with same | comment
  · rw [same, same]
  · exact commentLine_of_comment comment

/-- No call is live behind a stroke directly in front of the first one. -/
theorem clean_of_liveIn {before gap text : List Char} {later : List Piece} {call : List Char}
    (live : LiveIn before (gap.map .plain ++ .call text :: later) call) :
    occursIn ['/', '/'] (before ++ gap ++ ['/']) = false := by
  induction gap generalizing before with
  | nil =>
    rw [List.append_nil]
    exact (liveIn_call.mp live).1
  | cons c gap inductionHypothesis =>
    have onward := inductionHypothesis (liveIn_plain.mp live)
    rwa [List.append_cons before c gap]

/-- A line with code in front of a comment is no comment line, unless it was one or the two make a line
comment. -/
theorem isCommentLine_append {gap : List Char} (code : trim gap ≠ [])
    (clean : occursIn ['/', '/'] (gap ++ ['/']) = false) (behind others : List Char)
    (line : isCommentLine (trimLeft (gap ++ behind)) = false) :
    isCommentLine (trimLeft (gap ++ '/' :: others)) = false := by
  rw [trimLeft_append code] at line ⊢
  have within : trimLeft gap ++ ['/'] <:+: gap ++ ['/'] := by
    obtain ⟨blanks, whole⟩ := List.dropWhile_suffix isBlank (l := gap)
    refine ⟨blanks, [], ?_⟩
    rw [List.append_nil, ← List.append_assoc, show blanks ++ trimLeft gap = gap from whole]
  have apart := not_occursIn_of_inside within clean
  rcases shape : trimLeft gap with _ | ⟨c, _ | ⟨d, rest⟩⟩
  · rw [trim, shape] at code
    exact absurd rfl code
  · rw [shape] at line apart
    have notStroke : c ≠ '/' := by
      rintro rfl
      cases apart
    have notStar : c ≠ '*' := by
      rintro rfl
      simp [isCommentLine, List.isPrefixOf] at line
    simp [isCommentLine, List.isPrefixOf, Ne.symm notStroke, Ne.symm notStar]
  · rw [shape] at line
    simpa [isCommentLine, List.isPrefixOf] using line

/-- Calls that are found behind code on a line that is no comment line, and that can all be put in
comments, are put in comments: the line gets longer. -/
theorem commentLine_ne {line : List Char} {span : Span} {spans : List Span}
    (code : isCommentLine (trimLeft line) = false) (found : callSpans line = some (span :: spans))
    (shared : trim (line.take span.start) ≠ [])
    (closable : ∀ part ∈ span :: spans, occursIn ['*', '/'] (part.of line) = false) :
    commentLine line ≠ line := by
  obtain ⟨pieces, _, calls, whole, _, wraps, _⟩ := exists_pieces found
  rw [commentLine_of_shared code found shared, commentSpans_eq_wrapSpans closable, wraps]
  intro same
  have longer := length_commented pieces 0
  rw [same, whole, ← calls, List.length_cons] at longer
  omega

/-- A second pass over a line whose calls the first one has put in comments, behind other code. -/
theorem commented_again {line gap first : List Char} {later : List Piece}
    (reading : Reading [] line (some (gap.map .plain ++ .call first :: later)))
    (code : isCommentLine (trimLeft line) = false) (shared : trim gap ≠ [])
    (closable : ∀ call, .call call ∈ gap.map .plain ++ .call first :: later →
      occursIn ['*', '/'] call = false) :
    commentLine (commented (gap.map .plain ++ .call first :: later)) =
        commented (gap.map .plain ++ .call first :: later) ↔
      ¬ ((∀ call, LiveIn [] (gap.map .plain ++ .call first :: later) call → callSpans call.tail ≠ none) ∧
        ∃ call, LiveIn [] (gap.map .plain ++ .call first :: later) call ∧ callSpans call.tail ≠ some []) := by
  have again := reading.again .start _ rfl closable
  by_cases closed : ∀ call, LiveIn [] (gap.map .plain ++ .call first :: later) call →
      callSpans call.tail ≠ none
  · obtain ⟨spans, found, each, empty⟩ := again.found closed
    by_cases held : ∃ call, LiveIn [] (gap.map .plain ++ .call first :: later) call ∧
        callSpans call.tail ≠ some []
    · refine iff_of_false ?_ (not_not.mpr ⟨closed, held⟩)
      obtain ⟨call, live, holds⟩ := held
      cases spans with
      | nil => exact absurd (empty.mp rfl call live) holds
      | cons span spans =>
        refine commentLine_ne ?_ found ?_ fun part member => (each part member).1
        · have whole := reading.written_eq _ rfl
          have clean := clean_of_liveIn live
          have text : line = gap ++ (first ++ written later) := by
            rw [← whole]
            simp [written, Piece.written, List.flatMap_map]
          rw [text] at code
          have onward := isCommentLine_append shared clean (first ++ written later)
            ('*' :: ' ' :: (first ++ " */".toList ++ commented later)) code
          simpa [Piece.commented] using onward
        · have code' := (each span List.mem_cons_self).2
          rw [Ne, trim_eq_nil_iff]
          exact fun blank => absurd (blank 'c' code') (by decide)
    · refine iff_of_true (commentLine_of_none ?_) fun both => held both.2
      have none : spans = [] := by
        rw [empty]
        intro call live
        by_contra holds
        exact held ⟨call, live, holds⟩
      intro others read
      rw [show callSpans _ = some spans from found] at read
      exact (Option.some.inj read).symm.trans none
  · refine iff_of_true (commentLine_of_leftAlone (again.leftAlone ?_)) fun both => closed both.1
    by_contra closed'
    refine closed fun call live leftOpen => closed' ⟨call, live, leftOpen⟩

/-- On a line that is no comment line it is told from the calls whether a second pass puts comments into
comments. -/
theorem reopens_iff {line : List Char} {spans : List Span}
    (code : isCommentLine (trimLeft line) = false) (found : callSpans line = some spans) :
    Reopens line ↔ (∀ span ∈ spans.head?, trim (line.take span.start) ≠ []) ∧
      (∀ span ∈ spans, occursIn ['*', '/'] (span.of line) = false) ∧
      (∀ call, LiveIn [] (piecesAt spans 0 line) call → callSpans call.tail ≠ none) ∧
      ∃ call, LiveIn [] (piecesAt spans 0 line) call ∧ callSpans call.tail ≠ some [] := by
  simp [Reopens, code, found]

/-- Where no calls are found there is nothing to be put into. -/
theorem not_reopens_of_none {line : List Char} (none : ∀ spans ∈ callSpans line, spans = []) :
    ¬ Reopens line := by
  rintro ⟨_, spans, found, _, _, _, call, ⟨earlier, later, whole, _⟩, _⟩
  obtain rfl := none spans found
  have member : Piece.call call ∈ piecesAt [] 0 line := by
    rw [whole]
    simp
  simp [piecesAt] at member

/-- A second pass changes a line whose calls the first one has put in comments, behind other code, exactly
if it puts comments into these. -/
theorem commentLine_again_of_shared {line : List Char} {span : Span} {spans : List Span}
    (code : isCommentLine (trimLeft line) = false) (found : callSpans line = some (span :: spans))
    (shared : trim (line.take span.start) ≠ [])
    (closable : ∀ part ∈ span :: spans, occursIn ['*', '/'] (part.of line) = false) :
    commentLine (commentLine line) = commentLine line ↔ ¬ Reopens line := by
  obtain ⟨pieces, reading, calls, whole, cut, wraps, parts⟩ := exists_pieces found
  obtain ⟨gap, first, later, rfl, start⟩ := exists_first_call calls.symm
  have before : line.take span.start = gap := by
    rw [start, Nat.zero_add, ← whole]
    simp [written, List.flatMap_map, Piece.written]
  have each : ∀ call, Piece.call call ∈ gap.map .plain ++ .call first :: later →
      occursIn ['*', '/'] call = false := by
    intro call member
    obtain ⟨part, among, rfl⟩ := List.mem_map.mp (parts ▸ mem_filterMap_call?.mpr member)
    exact closable part among
  have first : ∀ part ∈ (span :: spans).head?, trim (line.take part.start) ≠ [] := by
    rintro part ⟨⟩
    exact shared
  rw [commentLine_of_shared code found shared, commentSpans_eq_wrapSpans closable, wraps,
    commented_again reading code (before ▸ shared) each, reopens_iff code found, cut]
  refine not_congr ?_
  constructor
  · intro held
    exact ⟨first, closable, held⟩
  · rintro ⟨_, _, held⟩
    exact held

/-- A second pass changes a line exactly if it puts comments into comments. -/
theorem commentLine_again (line : List Char) :
    commentLine (commentLine line) = commentLine line ↔ ¬ Reopens line := by
  by_cases comment : isCommentLine (trimLeft line) = true
  · have settled := commentLine_settled (.inl (commentLine_of_comment comment))
    exact iff_of_true settled fun reopens => by rw [reopens.1] at comment; cases comment
  rw [Bool.not_eq_true] at comment
  by_cases none : ∀ spans ∈ callSpans line, spans = []
  · have settled := commentLine_settled (.inl (commentLine_of_none none))
    exact iff_of_true settled (not_reopens_of_none none)
  obtain ⟨span, spans, found⟩ : ∃ span spans, callSpans line = some (span :: spans) := by
    push Not at none
    obtain ⟨spans, found, filled⟩ := none
    obtain ⟨span, others, rfl⟩ := List.exists_cons_of_ne_nil filled
    exact ⟨span, others, found⟩
  by_cases shared : trim (line.take span.start) = []
  · have settled := commentLine_settled (comment_of_blank found shared)
    refine iff_of_true settled ?_
    rw [reopens_iff comment found]
    rintro ⟨first, _⟩
    exact first span rfl shared
  by_cases closable : ∀ part ∈ span :: spans, occursIn ['*', '/'] (part.of line) = false
  · exact commentLine_again_of_shared comment found shared closable
  · have closes : ∃ part ∈ span :: spans, occursIn ['*', '/'] (part.of line) = true := by
      simpa only [not_forall, exists_prop, Bool.not_eq_false] using closable
    have once := commentLine_of_shared comment found shared
    have settled := commentLine_settled (.inl (once.trans (commentSpans_eq_self closes)))
    refine iff_of_true settled ?_
    rw [reopens_iff comment found]
    rintro ⟨_, within, _⟩
    exact closable within

/-- Comments bring only their marks into a line. -/
theorem mem_wrapSpans {c : Char} {spans : List Span} {offset : Nat} {line : List Char}
    (member : c ∈ wrapSpans spans offset line) : c ∈ line ∨ c ∈ [' ', '*', '/'] := by
  induction spans generalizing offset line with
  | nil => exact .inl member
  | cons span spans inductionHypothesis =>
    rw [wrapSpans] at member
    simp only [List.mem_append] at member
    rcases member with (((gap | opening) | call) | closing) | later
    · exact .inl (List.mem_of_mem_take gap)
    · simp at opening
      exact .inr (by simpa using by tauto)
    · exact .inl (List.mem_of_mem_drop (List.mem_of_mem_take call))
    · simp at closing
      exact .inr (by simpa using by tauto)
    · exact (inductionHypothesis later).imp_left List.mem_of_mem_drop

/-- A line stays one line. -/
theorem feed_not_mem_commentLine {line : List Char} (whole : '\n' ∉ line) : '\n' ∉ commentLine line := by
  have wrapped (spans : List Span) : '\n' ∉ commentSpans line spans := by
    rw [commentSpans]
    split
    · exact whole
    · intro member
      rcases mem_wrapSpans member with within | mark
      · exact whole within
      · simp at mark
  rw [commentLine]
  split
  · exact whole
  · split
    · exact whole
    · exact whole
    · next span _ =>
      split
      · intro member
        simp only [List.mem_append] at member
        rcases member with (gap | mark) | call
        · exact whole (List.mem_of_mem_take gap)
        · simp at mark
        · exact whole (List.mem_of_mem_drop (List.mem_of_mem_take call))
      · exact wrapped _
    · exact wrapped _

/-- **A second pass changes a text exactly if it puts comments into comments on one of its lines.** -/
theorem commentConsole_again (text : List Char) :
    commentConsole (commentConsole text) = commentConsole text ↔
      ∀ line ∈ splitLines text, ¬ Reopens line := by
  have filled : (splitLines text).map commentLine ≠ [] :=
    mt List.map_eq_nil_iff.mp (splitAt_ne_nil text)
  have whole : ∀ line ∈ splitLines text, '\n' ∉ commentLine line :=
    fun line member => feed_not_mem_commentLine (not_mem_of_mem_splitAt member)
  have read : splitLines (commentConsole text) = (splitLines text).map commentLine :=
    splitLines_joinLines filled (by simpa using whole)
  have again : commentConsole (commentConsole text) =
      joinLines ((splitLines text).map fun line => commentLine (commentLine line)) := by
    rw [commentConsole, read, List.map_map]
    rfl
  have readAgain : splitLines (commentConsole (commentConsole text)) =
      (splitLines text).map fun line => commentLine (commentLine line) := by
    rw [again]
    refine splitLines_joinLines (mt List.map_eq_nil_iff.mp (splitAt_ne_nil text)) ?_
    simpa using fun line member => feed_not_mem_commentLine (whole line member)
  have lines : commentConsole (commentConsole text) = commentConsole text ↔
      ∀ line ∈ splitLines text, commentLine (commentLine line) = commentLine line := by
    rw [← List.map_inj_left]
    constructor
    · intro same
      rw [← readAgain, ← read, same]
    · intro same
      rw [again, same]
      rfl
  rw [lines]
  exact forall₂_congr fun line _ => commentLine_again line

/-- A call inside another one is put in a comment of its own by the second pass, and that closes the
comment of the first one. -/
theorem nested_call_reopened :
    commentConsole (commentConsole "x = console.log(console.warn(1)); y();".toList) ≠
      commentConsole "x = console.log(console.warn(1)); y();".toList := by
  decide +kernel

end Conformance.Fix
