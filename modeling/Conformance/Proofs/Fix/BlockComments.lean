import Conformance.Proofs.Fix.InsertedMarks
import Conformance.Proofs.Fix.Surroundings

/-!
# Block comments of a line

A part of a line is untouched if no mark is inserted between its first and its last character. On a line
whose calls are put in block comments, a comment that is there already is untouched exactly if no call
reaches into it from before, and every call that is mentioned in it is behind two strokes or directly behind
the opening of a comment.
-/

namespace Conformance.Fix

open Text

/-- Marks are inserted before or behind a part of a line, which the given characters surround, but not
in it. -/
def Untouched (before part after : List Char) : Prop :=
  ∃ first second, markedLine (before ++ (part ++ after)) = first ++ (part.map .own ++ second) ∧
    unmarked first = before

/-- Behind the first characters of the line the next one is found again. -/
theorem exists_own {parts : List Part} {before rest : List Char} {c : Char}
    (whole : unmarked parts = before ++ c :: rest) :
    ∃ first second, parts = first ++ .own c :: second ∧ unmarked first = before ∧ unmarked second = rest := by
  induction parts generalizing before with
  | nil => simp at whole
  | cons part parts inductionHypothesis =>
    cases part with
    | mark text =>
      obtain ⟨first, second, rfl, rfl, rfl⟩ := inductionHypothesis whole
      exact ⟨.mark text :: first, second, rfl, rfl, rfl⟩
    | own d =>
      rw [unmarked_cons_own] at whole
      rcases List.cons_eq_append_iff.mp whole with ⟨rfl, same⟩ | ⟨others, rfl, behind⟩
      · cases same
        exact ⟨[], parts, rfl, rfl, rfl⟩
      · obtain ⟨first, second, rfl, rfl, rfl⟩ := inductionHypothesis behind
        exact ⟨.own d :: first, second, rfl, rfl, rfl⟩

/-- Characters with no mark between them stand directly one behind the other. -/
theorem exists_run {parts : List Part} {text rest : List Char} (whole : unmarked parts = text ++ rest)
    (apart : ∀ earlier mark later, parts = earlier ++ .mark mark :: later →
      text.length ≤ (unmarked earlier).length) :
    ∃ second, parts = text.map .own ++ second := by
  induction text generalizing parts with
  | nil => exact ⟨parts, rfl⟩
  | cons c text inductionHypothesis =>
    cases parts with
    | nil => simp at whole
    | cons part parts =>
      cases part with
      | mark mark =>
        have early := apart [] mark parts rfl
        simp at early
      | own d =>
        rw [unmarked_cons_own, List.cons_append, List.cons.injEq] at whole
        obtain ⟨rfl, whole⟩ := whole
        obtain ⟨second, rfl⟩ := inductionHypothesis whole fun earlier mark later split => by
          have early := apart (.own d :: earlier) mark later (by rw [split]; rfl)
          simpa using early
        exact ⟨second, rfl⟩

/-- A part is kept together exactly if every mark stands before or behind it. -/
theorem kept_together_iff {parts : List Part} {before part after : List Char} (filled : part ≠ [])
    (whole : unmarked parts = before ++ (part ++ after)) :
    (∃ first second, parts = first ++ (part.map .own ++ second) ∧ unmarked first = before) ↔
      ∀ earlier mark later, parts = earlier ++ .mark mark :: later →
        (unmarked earlier).length ≤ before.length ∨
          before.length + part.length ≤ (unmarked earlier).length := by
  constructor
  · rintro ⟨first, second, rfl, rfl⟩ earlier mark later split
    rcases List.append_eq_append_iff.mp split with ⟨onward, rfl, behind⟩ | ⟨onward, rfl, _⟩
    · obtain ⟨others, rfl, _⟩ := mark_behind_own behind
      refine .inr ?_
      simp only [unmarked_append, unmarked_own, List.length_append]
      omega
    · refine .inl ?_
      rw [unmarked_append, List.length_append]
      exact Nat.le_add_right _ _
  · intro apart
    obtain ⟨c, others, rfl⟩ := List.exists_cons_of_ne_nil filled
    obtain ⟨first, second, rfl, rfl, rest⟩ := exists_own whole
    obtain ⟨second, rfl⟩ := exists_run rest fun earlier mark later split => by
      have place := apart (first ++ .own c :: earlier) mark later (by rw [split]; simp)
      simp only [unmarked_append, unmarked_cons_own, List.length_append, List.length_cons] at place
      omega
    exact ⟨first, second, rfl, rfl⟩

/-- A part of a line with calls in block comments is untouched exactly if each of them begins and ends
before the part or behind it. -/
theorem untouched_iff_spans {before part after : List Char} (filled : part ≠ [])
    (shared : loneCall? (before ++ (part ++ after)) = none) :
    Untouched before part after ↔ ∀ span ∈ blockCalls (before ++ (part ++ after)),
      (span.start ≤ before.length ∨ before.length + part.length ≤ span.start) ∧
        (span.stop ≤ before.length ∨ before.length + part.length ≤ span.stop) := by
  obtain ⟨pieces, whole, spans, parts⟩ : ∃ pieces, written pieces = before ++ (part ++ after) ∧
      blockCalls (before ++ (part ++ after)) = spansOf 0 pieces ∧
      markedLine (before ++ (part ++ after)) = pieces.flatMap Piece.parts := by
    rw [markedLine, shared]
    rcases blockCalls_cases (before ++ (part ++ after)) with none | ⟨found, _⟩
    · exact ⟨_, written_plain _, by rw [none, spansOf_plain], by rw [none, piecesAt]⟩
    · obtain ⟨pieces, _, spans, whole, cut, _⟩ := exists_pieces found
      exact ⟨pieces, whole, spans, by rw [cut]⟩
  rw [Untouched, parts, kept_together_iff filled (by rw [unmarked_parts, whole]), spans]
  constructor
  · intro apart span member
    obtain ⟨earlier, call, later, rfl, rfl⟩ := mem_spansOf_iff.mp member
    have opened := apart (earlier.flatMap Piece.parts) "/* ".toList
      (call.map .own ++ .mark " */".toList :: later.flatMap Piece.parts) (by simp [Piece.parts])
    have closed := apart (earlier.flatMap Piece.parts ++ .mark "/* ".toList :: call.map .own) " */".toList
      (later.flatMap Piece.parts) (by simp [Piece.parts])
    simp only [unmarked_append, unmarked_parts, unmarked_cons_mark, unmarked_own, List.length_append]
      at opened closed
    simpa only [Nat.zero_add] using And.intro opened closed
  · intro apart earlier mark later split
    obtain ⟨front, call, behind, rfl, place⟩ := mark_parts split
    have ends := apart _ (mem_spansOf_iff.mpr ⟨front, call, behind, rfl, rfl⟩)
    simp only [Nat.zero_add] at ends
    rcases place with ⟨_, rfl, _⟩ | ⟨_, rfl, _⟩
    · rw [unmarked_parts]
      exact ends.1
    · simp only [unmarked_append, unmarked_parts, unmarked_cons_mark, unmarked_own, List.length_append]
      exact ends.2

/-- No call that is found begins where something else than its first character stands. -/
theorem start_ne {before rest : List Char} {c : Char} {spans : List Span}
    (found : callSpans (before ++ c :: rest) = some spans) (other : c ≠ 'c') :
    ∀ span ∈ spans, span.start ≠ before.length :=
  fun _ member here => other (exists_found_at found member here).1

/-- A part of a line that reaches over another one holds it. -/
theorem infix_of_covered {before part : List Char} (after : List Char) {span : Span}
    (starts : span.start ≤ before.length) (stops : before.length + part.length ≤ span.stop) :
    part <:+: span.of (before ++ (part ++ after)) := by
  have long : (before.drop span.start).length + part.length ≤ span.stop - span.start := by
    rw [List.length_drop]
    omega
  rw [Span.of, List.drop_append_of_le_length starts, List.take_append, List.take_of_length_le (by omega),
    List.take_append, List.take_of_length_le (by omega)]
  exact ⟨_, _, List.append_assoc ..⟩

/-- Behind the first stroke of a comment a call can begin only between the marks. -/
theorem exists_between {inner front back : List Char} (whole : blockComment inner = front ++ 'c' :: back) :
    ∃ before after, inner = before ++ 'c' :: after ∧ front = "/*".toList ++ before ∧
      back = after ++ "*/".toList := by
  rw [blockComment_eq] at whole
  match front, whole with
  | [], whole => exact absurd (List.cons.inj whole).1 (by decide)
  | [_], whole => exact absurd (List.cons.inj (List.cons.inj whole).2).1 (by decide)
  | first :: second :: front, whole =>
    simp only [List.cons_append, List.cons.injEq] at whole
    obtain ⟨rfl, rfl, whole⟩ := whole
    rcases List.append_eq_append_iff.mp whole with ⟨more, rfl, marks⟩ | ⟨_ | ⟨c, after⟩, rfl, rest⟩
    · have member : 'c' ∈ ['*', '/'] := by
        rw [marks]
        simp
      exact absurd member (by decide)
    · exact absurd (List.cons.inj rest).1 (by decide)
    · obtain ⟨rfl, rfl⟩ := List.cons.inj rest
      exact ⟨front, after, rfl, rfl, rfl⟩

section Mentions

variable {before inner behind : List Char} {spans : List Span}

/-- A call that is mentioned in a block comment, neither behind a line comment nor directly behind the opening
of a comment, is covered by one that is found. -/
theorem exists_covering (found : callSpans (before ++ (blockComment inner ++ behind)) = some spans)
    {front back : List Char} (inside : inner = front ++ back) (begins : callOpening? back ≠ none)
    (noLine : occursIn ['/', '/'] (before ++ ("/*".toList ++ front)) = false)
    (apart : endsWith "/* ".toList (before ++ ("/*".toList ++ front)) = false) :
    ∃ span ∈ spans, span.start ≤ before.length + 2 + front.length ∧
      before.length + 2 + front.length < span.stop := by
  cases back with
  | nil => exact absurd rfl begins
  | cons c others =>
    have place : before ++ (blockComment inner ++ behind) =
        before ++ ("/*".toList ++ front) ++ c :: (others ++ '*' :: '/' :: behind) := by
      rw [inside]
      simp [blockComment]
    rw [place] at found
    rw [← callOpening?_append (d := '*') (by decide) others ('/' :: behind)] at begins
    obtain ⟨span, member, covers⟩ := (covered_iff found begins).mpr (.inl ⟨noLine, apart⟩)
    refine ⟨span, member, ?_⟩
    simpa [Nat.add_assoc, Nat.add_comm 2] using covers

/-- A call that is found begins in a block comment only where one is mentioned, neither behind a line comment
nor directly behind the opening of a comment. -/
theorem exists_mention (found : callSpans (before ++ (blockComment inner ++ behind)) = some spans)
    {span : Span}
    (member : span ∈ spans) (starts : before.length < span.start)
    (stops : span.start < before.length + (blockComment inner).length) :
    ∃ front back, inner = front ++ back ∧ callOpening? back ≠ none ∧
      occursIn ['/', '/'] (before ++ ("/*".toList ++ front)) = false ∧
      endsWith "/* ".toList (before ++ ("/*".toList ++ front)) = false := by
  have within : span.start - before.length < (blockComment inner).length := by omega
  obtain ⟨front, c, back, whole, size⟩ := exists_split_at within
  have place : before ++ (blockComment inner ++ behind) = before ++ front ++ c :: (back ++ behind) := by
    rw [whole]
    simp
  rw [place] at found
  obtain ⟨rfl, opens, noLine, apart⟩ := exists_found_at found member (by rw [List.length_append]; omega)
  obtain ⟨front, back, rfl, rfl, rfl⟩ := exists_between whole
  refine ⟨front, 'c' :: back, rfl, ?_, noLine, apart⟩
  rw [← callOpening?_append (d := '*') (by decide) back ('/' :: behind)]
  simpa using opens

/-- The calls that are found are outside a block comment exactly if none reaches into it and none is mentioned
in it, except behind a line comment or directly behind the opening of a comment. -/
theorem outside_comment_iff (found : callSpans (before ++ (blockComment inner ++ behind)) = some spans)
    (closable : ∀ span ∈ spans,
      occursIn ['*', '/'] (span.of (before ++ (blockComment inner ++ behind))) = false) :
    (∀ span ∈ spans, (span.start ≤ before.length ∨ before.length + (blockComment inner).length ≤ span.start) ∧
        (span.stop ≤ before.length ∨ before.length + (blockComment inner).length ≤ span.stop)) ↔
      (∀ span ∈ spans, span.start < before.length → span.stop ≤ before.length) ∧
        ∀ front back, inner = front ++ back → callOpening? back ≠ none →
          occursIn ['/', '/'] (before ++ ("/*".toList ++ front)) = true ∨
            endsWith "/* ".toList (before ++ ("/*".toList ++ front)) = true := by
  have notHere : ∀ span ∈ spans, span.start ≠ before.length := start_ne found (by decide)
  have width : (blockComment inner).length = inner.length + 4 := by
    simp [blockComment]
  constructor
  · intro apart
    have reaching : ∀ span ∈ spans, span.start < before.length → span.stop ≤ before.length := by
      intro span member earlier
      refine (apart span member).2.resolve_right fun beyond => ?_
      -- A call that reaches over the comment holds the end of it.
      have closes : ['*', '/'] <:+: blockComment inner := (List.suffix_append _ _).isInfix
      have within := closes.trans (infix_of_covered behind (Nat.le_of_lt earlier) beyond)
      rw [← occursIn_iff, closable span member] at within
      cases within
    refine ⟨reaching, fun front back inside begins => ?_⟩
    by_contra free
    rw [not_or, Bool.not_eq_true, Bool.not_eq_true] at free
    obtain ⟨span, member, starts, stops⟩ := exists_covering found inside begins free.1 free.2
    have earlier := reaching span member
    have other := notHere span member
    have place := (apart span member).1
    have inner' := congrArg List.length inside
    rw [List.length_append] at inner'
    omega
  · rintro ⟨reaching, mentioned⟩ span member
    have starts : span.start ≤ before.length ∨ before.length + (blockComment inner).length ≤ span.start := by
      by_contra within
      rw [not_or, Nat.not_le, Nat.not_le] at within
      obtain ⟨front, back, inside, begins, noLine, apart⟩ := exists_mention found member within.1 within.2
      rcases mentioned front back inside begins with line | behind
      · rw [noLine] at line
        cases line
      · rw [apart] at behind
        cases behind
    have order : span.start ≤ span.stop := by
      obtain ⟨_, _, _, _, rfl, _⟩ := exists_found found member
      exact Nat.le_add_right _ _
    refine ⟨starts, ?_⟩
    have earlier := reaching span member
    have other := notHere span member
    omega

end Mentions

/-- On a line without calls in block comments every block comment is untouched. -/
theorem untouched_of_no_blockCalls {before inner behind : List Char}
    (none : blockCalls (before ++ (blockComment inner ++ behind)) = []) :
    Untouched before (blockComment inner) behind := by
  cases lone : loneCall? (before ++ (blockComment inner ++ behind)) with
  | none =>
    rw [untouched_iff_spans (by simp [blockComment]) lone, none]
    exact List.forall_mem_nil _
  | some span =>
    obtain ⟨indent, call, rest, whole, _, blank, _, trailing, parts⟩ := exists_lone lone
    have visible : isBlank '/' = false := by decide +kernel
    -- The first stroke of the comment is behind the blanks before the call, its last one before those
    -- behind the call.
    obtain ⟨gap, rfl⟩ := exists_behind_blanks blank visible whole
    have last :
        indent ++ gap ++ ('/' :: '*' :: inner ++ ['*']) ++ '/' :: behind = indent ++ call ++ rest := by
      rw [List.append_assoc indent call, ← whole, blockComment_eq]
      simp
    obtain ⟨after, ends⟩ := exists_before_blanks trailing visible last
    have kept : unmarked (indent.map .own ++ .mark "// ".toList :: call.map .own) =
        indent ++ gap ++ (blockComment inner ++ after) := by
      simpa [blockComment_eq] using ends
    rw [Untouched, parts, kept_together_iff (by simp [blockComment]) kept]
    intro earlier mark later split
    rcases first_mark split with ⟨rfl, _⟩ | ⟨others, _, further⟩
    · refine .inl ?_
      rw [unmarked_own, List.length_append]
      exact Nat.le_add_right _ _
    · have member : Part.mark mark ∈ call.map Part.own := by simp [further]
      simp at member

/-- **When a block comment of a line is untouched.** The lines of the output are those of the text with
their marks. Between the marks of a comment nothing is inserted exactly if no call of its line is put in a
block comment, or none that begins before it reaches into it and none is mentioned in it, except behind a
line comment or directly behind the opening of a comment. -/
theorem blockComment_untouched_iff (text before inner behind : List Char) :
    splitLines (commentConsole text) = (splitLines text).map (fun line => marked (markedLine line)) ∧
      (Untouched before (blockComment inner) behind ↔
        blockCalls (before ++ (blockComment inner ++ behind)) = [] ∨
          (∀ span ∈ blockCalls (before ++ (blockComment inner ++ behind)),
            span.start < before.length → span.stop ≤ before.length) ∧
          ∀ front back, inner = front ++ back → callOpening? back ≠ none →
            occursIn ['/', '/'] (before ++ ("/*".toList ++ front)) = true ∨
              endsWith "/* ".toList (before ++ ("/*".toList ++ front)) = true) := by
  refine ⟨by simp only [splitLines_commentConsole, marked_markedLine], ?_⟩
  rcases blockCalls_cases (before ++ (blockComment inner ++ behind)) with none | ⟨found, _, shared, closable⟩
  · exact iff_of_true (untouched_of_no_blockCalls none) (.inl none)
  · rw [untouched_iff_spans (by simp [blockComment]) shared]
    constructor
    · exact fun outside => .inr ((outside_comment_iff found closable).mp outside)
    · rintro (none | apart)
      · rw [none]
        exact List.forall_mem_nil _
      · exact (outside_comment_iff found closable).mpr apart

/-- A call that is mentioned in a comment, but not directly behind its opening, gets a comment of its own, and
the end of that one ends the other: what was the rest of the comment is code. -/
theorem mentioned_call_closes_comment :
    Surrounding.code.after "foo(); ".toList = .code ∧
      ¬ ['*', '/'] <:+: " see console.log(1) ".toList ++ ['*'] ∧
      ¬ Untouched "foo(); ".toList (blockComment " see console.log(1) ".toList) " bar();".toList ∧
      commentConsole ("foo(); ".toList ++ (blockComment " see console.log(1) ".toList ++ " bar();".toList)) =
        "foo(); /* see /* console.log(1) */ */ bar();".toList ∧
      Surrounding.code.after "foo(); /* see /* console.log(1) */".toList = .code := by
  refine ⟨by decide +kernel, by decide +kernel, ?_, by decide +kernel, by decide +kernel⟩
  rw [untouched_iff_spans (by decide +kernel) (by decide +kernel)]
  decide +kernel

end Conformance.Fix
