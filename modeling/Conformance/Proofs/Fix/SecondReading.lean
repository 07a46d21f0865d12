import Conformance.Proofs.Fix.CallPieces

/-!
# Reading commented calls

What a second pass finds where the first one has put calls in comments. Such a call has the opening of
its comment directly before it and is not found again, and neither is what the first pass has passed. A
call inside another one is found, unless a line comment stands before it; if it is left open there, it
takes the end of the comment with it or stays open, and then the second pass leaves the line alone.
-/

namespace Conformance.Fix

open Text

/-- A call in a comment of its own that is not behind a line comment. The characters before the pieces
are given. -/
def LiveIn (before : List Char) (pieces : List Piece) (call : List Char) : Prop :=
  ∃ earlier later, pieces = earlier ++ .call call :: later ∧
    occursIn ['/', '/'] (before ++ commented earlier ++ ['/']) = false

/-- A line comment that is looked for backwards is found as well. -/
theorem occursIn_reverse (text : List Char) :
    occursIn ['/', '/'] text.reverse = occursIn ['/', '/'] text := by
  rw [Bool.eq_iff_iff, occursIn_iff, occursIn_iff, ← List.reverse_infix, List.reverse_reverse]
  rfl

/-- A line comment in a part is one in the whole. -/
theorem not_occursIn_of_inside {word part text : List Char} (within : part <:+: text)
    (none : occursIn word text = false) : occursIn word part = false := by
  rw [← Bool.not_eq_true, occursIn_iff] at none ⊢
  exact fun found => none (found.trans within)

/-- A character outside the calls holds none. -/
theorem liveIn_plain {before : List Char} {c : Char} {pieces : List Piece} {call : List Char} :
    LiveIn before (.plain c :: pieces) call ↔ LiveIn (before ++ [c]) pieces call := by
  constructor
  · rintro ⟨_ | ⟨piece, earlier⟩, later, whole, clean⟩
    · cases whole
    · obtain ⟨rfl, rfl⟩ := List.cons.inj whole
      exact ⟨earlier, later, rfl, by simpa [Piece.commented] using clean⟩
  · rintro ⟨earlier, later, rfl, clean⟩
    exact ⟨.plain c :: earlier, later, rfl, by simpa [Piece.commented] using clean⟩

/-- A call is live if no line comment stands before it, and then those behind it can be. -/
theorem liveIn_call {before text : List Char} {pieces : List Piece} {call : List Char} :
    LiveIn before (.call text :: pieces) call ↔ occursIn ['/', '/'] (before ++ ['/']) = false ∧
      (call = text ∨ LiveIn (before ++ (Piece.call text).commented) pieces call) := by
  constructor
  · rintro ⟨_ | ⟨piece, earlier⟩, later, whole, clean⟩
    · obtain ⟨same, rfl⟩ := List.cons.inj whole
      cases same
      exact ⟨by simpa using clean, .inl rfl⟩
    · obtain ⟨rfl, rfl⟩ := List.cons.inj whole
      have within : before ++ ['/'] <:+: before ++ commented (.call text :: earlier) ++ ['/'] := by
        refine List.IsPrefix.isInfix ⟨['*', ' '] ++ text ++ " */".toList ++ commented earlier ++ ['/'], ?_⟩
        simp [Piece.commented]
      exact ⟨not_occursIn_of_inside within clean, .inr ⟨earlier, later, rfl, by simpa using clean⟩⟩
  · rintro ⟨clean, rfl | ⟨earlier, later, rfl, further⟩⟩
    · exact ⟨[], pieces, rfl, by simpa using clean⟩
    · exact ⟨.call text :: earlier, later, rfl, by simpa using further⟩

/-- Behind a line comment no call is live. -/
theorem not_liveIn {before : List Char} (line : occursIn ['/', '/'] before = true) (pieces : List Piece)
    (call : List Char) : ¬ LiveIn before pieces call := by
  rintro ⟨earlier, later, _, clean⟩
  have within : before <:+: before ++ commented earlier ++ ['/'] := by
    rw [List.append_assoc]
    exact (List.prefix_append _ _).isInfix
  rw [not_occursIn_of_inside within clean] at line
  cases line

/-- What a second pass has before a place, where the first one had the given characters: the calls are
in comments. Both are given in reverse. -/
inductive Follows : List Char → List Char → Prop where
  | start : Follows [] []
  | plain {before after : List Char} (c : Char) (earlier : Follows before after) :
      Follows (c :: before) (c :: after)
  | call {before after text : List Char} (closed : IsCall text) (earlier : Follows before after) :
      Follows (text.reverse ++ before) ((Piece.call text).commented.reverse ++ after)

/-- A word that is in no end of a call stands directly before a place in both passes. -/
theorem Follows.prefix_of {before after word : List Char} (follows : Follows before after)
    (lacks : ')' ∉ word ∧ ';' ∉ word) (begins : word <+: before) : word <+: after := by
  induction follows generalizing word with
  | start => exact begins
  | plain c earlier inductionHypothesis =>
    cases word with
    | nil => exact List.nil_prefix
    | cons w word =>
      rw [List.cons_prefix_cons] at begins ⊢
      simp only [List.mem_cons, not_or] at lacks
      exact ⟨begins.1, inductionHypothesis ⟨lacks.1.2, lacks.2.2⟩ begins.2⟩
  | call closed earlier inductionHypothesis =>
    obtain ⟨inner, last, rfl, ends⟩ := closed
    cases word with
    | nil => exact List.nil_prefix
    | cons w word =>
      have same : w = last := by
        simp only [List.reverse_cons, List.reverse_append, List.reverse_nil, List.nil_append,
          List.cons_append] at begins
        exact (List.cons_prefix_cons.mp begins).1
      rcases ends with rfl | rfl <;> simp [same] at lacks

/-- A word that is neither in an end of a call nor reaches beyond its beginning stands before a place in
both passes. -/
theorem Follows.infix_of {before after word : List Char} (follows : Follows before after)
    (filled : word ≠ []) (apart : 'c' ∉ word) (lacks : ')' ∉ word ∧ ';' ∉ word) (within : word <:+: before) :
    word <:+: after := by
  induction follows with
  | start => exact within
  | plain c earlier inductionHypothesis =>
    rcases List.infix_cons_iff.mp within with begins | further
    · exact ((earlier.plain c).prefix_of lacks begins).isInfix
    · exact List.infix_cons (inductionHypothesis further)
  | @call before after text closed earlier inductionHypothesis =>
    obtain ⟨inner, last, rfl, _⟩ := closed
    have split : ('c' :: (inner ++ [last])).reverse ++ before =
        (inner ++ [last]).reverse ++ 'c' :: before := by simp
    rw [split, infix_append_cons_iff filled apart] at within
    rcases within with inside | further
    · refine inside.trans ⟨" */".toList.reverse, 'c' :: ("/* ".toList.reverse ++ after), ?_⟩
      simp [Piece.commented]
    · exact (inductionHypothesis further).trans (List.suffix_append _ _).isInfix

/-- A line comment before a place stands there in both passes. -/
theorem Follows.inert {before after : List Char} (follows : Follows before after)
    (line : occursIn ['/', '/'] before = true) : occursIn ['/', '/'] after = true := by
  rw [occursIn_iff] at line ⊢
  exact follows.infix_of (by decide) (by decide) (by decide) line

/-- Comments around the calls leave the beginnings of calls outside them as they are. -/
theorem callOpening?_commented {pieces : List Piece} (calls : ∀ call, .call call ∈ pieces → IsCall call)
    (c : Char) : callOpening? (c :: commented pieces) = callOpening? (c :: written pieces) := by
  refine callOpening?_congr fun opening member => ?_
  obtain ⟨others, rfl, lacks⟩ := openings_shape opening member
  rw [List.cons_prefix_cons, List.cons_prefix_cons]
  refine and_congr_right fun _ => ?_
  clear member
  induction pieces generalizing others with
  | nil => rfl
  | cons piece pieces inductionHypothesis =>
    cases others with
    | nil => simp
    | cons other others =>
      cases piece with
      | plain d =>
        have later := inductionHypothesis (fun call member => calls call (List.mem_cons_of_mem _ member))
          others fun c member inside => lacks c member (List.mem_cons_of_mem _ inside)
        simp [Piece.written, Piece.commented, List.cons_prefix_cons, later]
      | call text =>
        obtain ⟨inner, last, rfl, _⟩ := calls text List.mem_cons_self
        have notC : other ≠ 'c' := fun same => lacks 'c' (by decide) (same ▸ List.mem_cons_self)
        have notStroke : other ≠ '/' := fun same => lacks '/' (by decide) (same ▸ List.mem_cons_self)
        simp [Piece.written, Piece.commented, List.cons_prefix_cons, notC, notStroke]

/-- Calls are left alone: one of them, behind the beginning of another one, would close its own
comment, or one is left open. -/
def LeftAlone (line : List Char) (found : Option (List Span)) : Prop :=
  ∀ spans ∈ found, ∃ span ∈ spans, occursIn ['*', '/'] (span.of line) = true ∧ 'c' ∈ line.take span.start

/-- Further calls in front do not change that calls are left alone. -/
theorem LeftAlone.append {line : List Char} {found : Option (List Span)} (left : LeftAlone line found)
    (first : List Span) : LeftAlone line (found.map (first ++ ·)) := by
  simp only [LeftAlone, Option.mem_def, Option.map_eq_some_iff]
  rintro _ ⟨spans, read, rfl⟩
  obtain ⟨span, member, closes⟩ := left spans read
  exact ⟨span, List.mem_append_right _ member, closes⟩

section Inside

variable {before outer : List Char}

/-- Before a place inside a call there is a line comment exactly if there is one inside the call. -/
theorem occursIn_inside (clean : occursIn ['/', '/'] outer = false) :
    occursIn ['/', '/'] (before ++ 'c' :: outer) = occursIn ['/', '/'] before := by
  rw [← Bool.not_eq_true, occursIn_iff] at clean
  rw [Bool.eq_iff_iff, occursIn_iff, occursIn_iff, infix_append_cons_iff (by decide) (by decide)]
  exact or_iff_left clean

/-- The opening of a comment directly before a place inside a call is inside the call. -/
theorem isPrefixOf_inside :
    [' ', '*', '/'].isPrefixOf (before ++ 'c' :: outer) = [' ', '*', '/'].isPrefixOf before := by
  rw [Bool.eq_iff_iff, List.isPrefixOf_iff_prefix, List.isPrefixOf_iff_prefix,
    prefix_append_cons_iff (by decide)]

/-- What is passed in a call is passed where the call stands before a blank. -/
theorem Passed.inside {c : Char} {rest : List Char} (passed : Passed before (c :: rest))
    (clean : occursIn ['/', '/'] outer = false) (behind : List Char) :
    Passed (before ++ 'c' :: outer) (c :: rest ++ ' ' :: behind) := by
  rw [Passed, callOpening?_append (by decide), occursIn_inside clean, isPrefixOf_inside]
  exact passed

/-- A call that begins in a call begins where that stands before a blank. -/
theorem Opens.inside {text : List Char} (opens : Opens before text)
    (clean : occursIn ['/', '/'] outer = false) (behind : List Char) :
    Opens (before ++ 'c' :: outer) (text ++ ' ' :: behind) := by
  cases text with
  | nil => exact absurd rfl opens.1
  | cons c rest =>
    rw [Opens, callOpening?_append (by decide), occursIn_inside clean, isPrefixOf_inside]
    exact opens

/-- A call that is left open inside another one takes the end of the comment in which that stands, or
stays open. -/
theorem leftAlone_of_leftOpen {text : List Char} (opens : Opens before text)
    (stays : callLength? text = none) (clean : occursIn ['/', '/'] outer = false) (behind : List Char) :
    LeftAlone ((before ++ 'c' :: outer).reverse ++ (text ++ ' ' :: '*' :: '/' :: behind))
      (callsBehind (before ++ 'c' :: outer) (text ++ ' ' :: '*' :: '/' :: behind)) := by
  rw [callsBehind_opens (opens.inside clean ('*' :: '/' :: behind))]
  intro spans found
  simp only [Option.mem_def, Option.bind_eq_some_iff, Option.map_eq_some_iff] at found
  obtain ⟨length, closes, later, _, rfl⟩ := found
  have here : 'c' ∈ ((before ++ 'c' :: outer).reverse ++ (text ++ ' ' :: '*' :: '/' :: behind)).take
      (before ++ 'c' :: outer).length := by
    rw [List.take_left' List.length_reverse]
    simp
  refine ⟨_, List.mem_cons_self, ?_, here⟩
  -- The parenthesis that closes it stands behind the comment in which it is.
  obtain ⟨more, rest, split, enough⟩ := callLength?_beyond opens.1 stays closes
  obtain ⟨others, rfl⟩ : ∃ others, more = ' ' :: '*' :: '/' :: others := by
    rcases more with _ | ⟨blank, _ | ⟨star, _ | ⟨stroke, others⟩⟩⟩
    · simp at split
    · simp at split
    · simp at split
    · simp only [List.cons_append, List.cons.injEq] at split
      obtain ⟨rfl, rfl, rfl, _⟩ := split
      exact ⟨others, rfl⟩
  have whole : ((before ++ 'c' :: outer).reverse ++ (text ++ ' ' :: '*' :: '/' :: behind)).drop
      (before ++ 'c' :: outer).length = text ++ ' ' :: '*' :: '/' :: behind :=
    List.drop_left' List.length_reverse
  rw [Span.of, whole, Nat.add_sub_cancel_left, occursIn_iff]
  have taken : text ++ [' ', '*', '/'] <+: (text ++ ' ' :: '*' :: '/' :: behind).take length := by
    rw [List.prefix_take_iff]
    refine ⟨⟨behind, by simp⟩, ?_⟩
    simp only [List.length_append, List.length_cons, List.length_nil] at enough ⊢
    omega
  exact List.IsInfix.trans ⟨text ++ [' '], [], by simp⟩ taken.isInfix

/-- The calls inside a call are found where it stands in a comment of its own. If one of them is left
open, it takes the end of that comment, or none at all. -/
theorem Reading.inside {text : List Char} {found : Option (List Piece)}
    (reading : Reading before text found) (clean : occursIn ['/', '/'] outer = false)
    (behind : List Char) :
    (∀ pieces ∈ found, callsBehind (before ++ 'c' :: outer) (text ++ ' ' :: '*' :: '/' :: behind) =
        (callsBehind (text.reverse ++ (before ++ 'c' :: outer)) (' ' :: '*' :: '/' :: behind)).map
          (spansOf (before ++ 'c' :: outer).length pieces ++ ·)) ∧
      (found = none → LeftAlone ((before ++ 'c' :: outer).reverse ++ (text ++ ' ' :: '*' :: '/' :: behind))
        (callsBehind (before ++ 'c' :: outer) (text ++ ' ' :: '*' :: '/' :: behind))) := by
  induction reading with
  | done before => simp [spansOf]
  | @inert before text line =>
    have here : occursIn ['/', '/'] (before ++ 'c' :: outer) = true := by
      rw [occursIn_inside clean, line]
    have further : occursIn ['/', '/'] (text.reverse ++ (before ++ 'c' :: outer)) = true := by
      rw [occursIn_iff] at here ⊢
      exact here.trans (List.suffix_append _ _).isInfix
    simp [callsBehind_inert _ here, callsBehind_inert _ further, spansOf_plain]
  | @plain before rest c found passed onward inductionHypothesis =>
    have here : callsBehind (before ++ 'c' :: outer) (c :: rest ++ ' ' :: '*' :: '/' :: behind) =
        callsBehind (c :: before ++ 'c' :: outer) (rest ++ ' ' :: '*' :: '/' :: behind) :=
      callsBehind_passed (passed.inside clean ('*' :: '/' :: behind))
    obtain ⟨closed, left⟩ := inductionHypothesis
    rw [here]
    constructor
    · simp only [Option.mem_def, Option.map_eq_some_iff]
      rintro _ ⟨pieces, read, rfl⟩
      rw [closed pieces read, List.reverse_cons, List.append_assoc]
      rfl
    · intro none
      simpa using left (Option.map_eq_none_iff.mp none)
  | @call before text rest found opens closes onward inductionHypothesis =>
    have here := callsBehind_opens (opens.inside clean ('*' :: '/' :: behind))
    rw [callLength?_append closes, Option.bind_some, List.append_assoc, List.take_left, List.drop_left,
      ← List.append_assoc text, ← List.append_assoc text.reverse] at here
    obtain ⟨closed, left⟩ := inductionHypothesis
    rw [here]
    constructor
    · simp only [Option.mem_def, Option.map_eq_some_iff]
      rintro _ ⟨pieces, read, rfl⟩
      rw [closed pieces read, Option.map_map, List.reverse_append]
      have size : (text.reverse ++ before ++ 'c' :: outer).length =
          (before ++ 'c' :: outer).length + text.length := by
        simp only [List.length_append, List.length_reverse]
        omega
      rw [size]
      simp only [spansOf, List.append_assoc]
      rfl
    · intro none
      have further := (left (Option.map_eq_none_iff.mp none)).append
        [⟨(before ++ 'c' :: outer).length, (before ++ 'c' :: outer).length + text.length⟩]
      simpa using further
  | @leftOpen before text opens stays =>
    exact ⟨by simp, fun _ => leftAlone_of_leftOpen opens stays clean behind⟩

end Inside

/-- A comment in which a line comment would not begin at its first stroke is opened without one. -/
theorem clean_behind_opening {after : List Char} (clean : occursIn ['/', '/'] ('/' :: after) = false) :
    occursIn ['/', '/'] (' ' :: '*' :: '/' :: after) = false := by
  rw [occursIn, occursIn, clean]
  rfl

/-- The opening of a comment is passed, with the beginning of the call behind it. -/
theorem callsBehind_opening {after : List Char} (clean : occursIn ['/', '/'] ('/' :: after) = false)
    (behind : List Char) :
    callsBehind after ('/' :: '*' :: ' ' :: 'c' :: behind) =
      callsBehind ('c' :: ' ' :: '*' :: '/' :: after) behind := by
  have inComment := clean_behind_opening clean
  rw [callsBehind_passed (.inl (callOpening?_cons_of_ne (by decide) _)),
    callsBehind_passed (.inl (callOpening?_cons_of_ne (by decide) _)),
    callsBehind_passed (.inl (callOpening?_cons_of_ne (by decide) _)),
    callsBehind_passed (.inr ⟨inComment, by simp [List.isPrefixOf]⟩)]

/-- The end of a comment is passed. -/
theorem callsBehind_closing (before behind : List Char) :
    callsBehind before (' ' :: '*' :: '/' :: behind) = callsBehind ('/' :: '*' :: ' ' :: before) behind := by
  rw [callsBehind_passed (.inl (callOpening?_cons_of_ne (by decide) _)),
    callsBehind_passed (.inl (callOpening?_cons_of_ne (by decide) _)),
    callsBehind_passed (.inl (callOpening?_cons_of_ne (by decide) _))]

/-- The calls that a commented call holds are found in its comment. None of them closes a comment, and
each stands behind the beginning of the one that holds it. -/
theorem Reading.held {after tail : List Char} {held : List Piece}
    (reading : Reading [] tail (some held)) (closable : occursIn ['*', '/'] ('c' :: tail) = false)
    (behind : List Char) {span : Span}
    (member : span ∈ spansOf ('c' :: ' ' :: '*' :: '/' :: after).length held) :
    occursIn ['*', '/'] (span.of (('c' :: ' ' :: '*' :: '/' :: after).reverse ++ (tail ++ behind))) = false ∧
      'c' ∈ (('c' :: ' ' :: '*' :: '/' :: after).reverse ++ (tail ++ behind)).take span.start := by
  have parts := map_of_spansOf _ ('c' :: ' ' :: '*' :: '/' :: after).reverse List.length_reverse held behind
  have part := infix_written (mem_filterMap_call?.mp (parts ▸ List.mem_map_of_mem member))
  rw [reading.written_eq held rfl] at part
  refine ⟨not_occursIn_of_inside (part.trans (List.suffix_cons 'c' tail).isInfix) closable, ?_⟩
  have opened : ('c' :: ' ' :: '*' :: '/' :: after).reverse.length ≤ span.start := by
    rw [List.length_reverse]
    exact (le_of_mem_spansOf span member).1
  rw [List.take_append, List.take_of_length_le opened]
  simp

/-- A call in a comment, in front of other pieces. -/
theorem commented_cons_call (tail : List Char) (pieces : List Piece) :
    commented (.call ('c' :: tail) :: pieces) =
      '/' :: '*' :: ' ' :: 'c' :: (tail ++ ' ' :: '*' :: '/' :: commented pieces) := by
  simp [Piece.commented]

/-- Where a call in a comment is live, so are those behind it that are live behind the comment. -/
theorem liveIn_cons_call {after : List Char} (clean : occursIn ['/', '/'] ('/' :: after) = false)
    {text : List Char} {pieces : List Piece} {call : List Char} :
    LiveIn after.reverse (.call text :: pieces) call ↔
      call = text ∨ LiveIn ((Piece.call text).commented.reverse ++ after).reverse pieces call := by
  rw [liveIn_call, ← List.reverse_cons, occursIn_reverse, List.reverse_append, List.reverse_reverse]
  exact and_iff_right clean

/-- Where a call in a comment holds one that is left open, calls are left alone. -/
theorem Reading.leftAlone {after tail : List Char} (reading : Reading [] tail none)
    (clean : occursIn ['/', '/'] ('/' :: after) = false) (pieces : List Piece) :
    LeftAlone (after.reverse ++ commented (.call ('c' :: tail) :: pieces))
      (callsBehind after (commented (.call ('c' :: tail) :: pieces))) := by
  rw [commented_cons_call, callsBehind_opening clean]
  simpa using (reading.inside (clean_behind_opening clean) (commented pieces)).2 rfl

/-- The calls that one in a comment holds are found in front of those behind the comment. -/
theorem Reading.callsBehind_cons {after tail : List Char} {held : List Piece}
    (reading : Reading [] tail (some held)) (clean : occursIn ['/', '/'] ('/' :: after) = false)
    (pieces : List Piece) :
    callsBehind after (commented (.call ('c' :: tail) :: pieces)) =
      (callsBehind ((Piece.call ('c' :: tail)).commented.reverse ++ after) (commented pieces)).map
        (spansOf ('c' :: ' ' :: '*' :: '/' :: after).length held ++ ·) := by
  have inside := (reading.inside (clean_behind_opening clean) (commented pieces)).1 held rfl
  have beyond : '/' :: '*' :: ' ' :: (tail.reverse ++ 'c' :: ' ' :: '*' :: '/' :: after) =
      (Piece.call ('c' :: tail)).commented.reverse ++ after := by
    simp [Piece.commented]
  rw [List.nil_append, callsBehind_closing, beyond] at inside
  rw [commented_cons_call, callsBehind_opening clean, inside]

/-- What a second pass finds in some pieces whose calls are in comments, behind the given characters in
reverse. If a live call holds one that is left open, calls are left alone; otherwise those are found
that the live calls hold, each behind the beginning of the one that holds it. -/
structure SecondReading (after : List Char) (pieces : List Piece) : Prop where
  leftAlone : (∃ call, LiveIn after.reverse pieces call ∧ callSpans call.tail = none) →
    LeftAlone (after.reverse ++ commented pieces) (callsBehind after (commented pieces))
  found : (∀ call, LiveIn after.reverse pieces call → callSpans call.tail ≠ none) →
    ∃ spans, callsBehind after (commented pieces) = some spans ∧
      (∀ span ∈ spans, occursIn ['*', '/'] (span.of (after.reverse ++ commented pieces)) = false ∧
        'c' ∈ (after.reverse ++ commented pieces).take span.start) ∧
      (spans = [] ↔ ∀ call, LiveIn after.reverse pieces call → callSpans call.tail = some [])

namespace SecondReading

/-- Where no call is live none is found. -/
theorem ofNone {after : List Char} {pieces : List Piece}
    (none : callsBehind after (commented pieces) = some [])
    (dead : ∀ call, ¬ LiveIn after.reverse pieces call) : SecondReading after pieces where
  leftAlone := by
    rintro ⟨call, live, _⟩
    exact absurd live (dead call)
  found := fun _ => ⟨[], none, by simp, by simp [dead]⟩

/-- Behind a line comment none is found. -/
theorem ofInert {after : List Char} (line : occursIn ['/', '/'] after = true) (pieces : List Piece) :
    SecondReading after pieces :=
  ofNone (callsBehind_inert _ line) fun call =>
    not_liveIn (by rw [occursIn_reverse, line]) pieces call

/-- A character that is passed changes nothing. -/
theorem ofPlain {after : List Char} {c : Char} {pieces : List Piece}
    (passed : Passed after (c :: commented pieces)) (onward : SecondReading (c :: after) pieces) :
    SecondReading after (.plain c :: pieces) := by
  have same : callsBehind after (commented (.plain c :: pieces)) =
      callsBehind (c :: after) (commented pieces) :=
    callsBehind_passed passed
  have line : after.reverse ++ commented (.plain c :: pieces) = (c :: after).reverse ++ commented pieces := by
    simp [Piece.commented]
  have live (call : List Char) :
      LiveIn after.reverse (.plain c :: pieces) call ↔ LiveIn (c :: after).reverse pieces call := by
    rw [liveIn_plain, List.reverse_cons]
  constructor
  · simp only [same, line, live]
    exact onward.leftAlone
  · simp only [same, line, live]
    exact onward.found

/-- A call in a comment that holds one that is left open makes that calls are left alone. -/
theorem ofOpen {after tail : List Char} {pieces : List Piece}
    (clean : occursIn ['/', '/'] ('/' :: after) = false) (reading : Reading [] tail none)
    (stays : callSpans tail = none) : SecondReading after (.call ('c' :: tail) :: pieces) where
  leftAlone := fun _ => reading.leftAlone clean pieces
  found := fun closed => absurd stays (closed _ ((liveIn_cons_call clean).mpr (.inl rfl)))

/-- A call in a comment gives the calls that it holds, if none of them is left open. -/
theorem ofHeld {after tail : List Char} {pieces held : List Piece}
    (clean : occursIn ['/', '/'] ('/' :: after) = false) (closable : occursIn ['*', '/'] ('c' :: tail) = false)
    (reading : Reading [] tail (some held)) (calls : callSpans tail = some (spansOf 0 held))
    (onward : SecondReading ((Piece.call ('c' :: tail)).commented.reverse ++ after) pieces) :
    SecondReading after (.call ('c' :: tail) :: pieces) := by
  have begins := reading.callsBehind_cons clean pieces
  have line : after.reverse ++ commented (.call ('c' :: tail) :: pieces) =
      ((Piece.call ('c' :: tail)).commented.reverse ++ after).reverse ++ commented pieces := by
    simp
  constructor
  · rintro ⟨call, isLive, leftOpen⟩
    rcases (liveIn_cons_call clean).mp isLive with rfl | later
    · rw [List.tail_cons, calls] at leftOpen
      cases leftOpen
    · rw [begins, line]
      exact (onward.leftAlone ⟨call, later, leftOpen⟩).append _
  · intro closed
    obtain ⟨spans, read, closes, empty⟩ :=
      onward.found fun call later => closed call ((liveIn_cons_call clean).mpr (.inr later))
    refine ⟨spansOf ('c' :: ' ' :: '*' :: '/' :: after).length held ++ spans, ?_, ?_, ?_⟩
    · rw [begins, read]
      rfl
    · intro span member
      rcases List.mem_append.mp member with here | further
      · have same : after.reverse ++ commented (.call ('c' :: tail) :: pieces) =
            ('c' :: ' ' :: '*' :: '/' :: after).reverse ++
              (tail ++ ' ' :: '*' :: '/' :: commented pieces) := by
          simp [Piece.commented]
        rw [same]
        exact reading.held closable _ here
      · rw [line]
        exact closes span further
    · rw [List.append_eq_nil_iff, spansOf_eq_nil_iff _ 0, empty]
      constructor
      · rintro ⟨none, others⟩ call isLive
        rcases (liveIn_cons_call clean).mp isLive with rfl | later
        · rw [List.tail_cons, calls, none]
        · exact others call later
      · intro all
        refine ⟨?_, fun call later => all call ((liveIn_cons_call clean).mpr (.inr later))⟩
        have here := all _ ((liveIn_cons_call clean).mpr (.inl rfl))
        rw [List.tail_cons, calls] at here
        exact Option.some.inj here

/-- A call in a comment gives the calls that it holds. -/
theorem ofCall {after text : List Char} {pieces : List Piece} (closed : IsCall text)
    (clean : occursIn ['/', '/'] ('/' :: after) = false) (closable : occursIn ['*', '/'] text = false)
    (onward : SecondReading ((Piece.call text).commented.reverse ++ after) pieces) :
    SecondReading after (.call text :: pieces) := by
  obtain ⟨tail, rfl⟩ : ∃ tail, text = 'c' :: tail := by
    obtain ⟨inner, last, shape, _⟩ := closed
    exact ⟨_, shape⟩
  obtain ⟨found, reading, calls⟩ := exists_reading [] tail
  replace calls : callSpans tail = found.map (spansOf 0) := calls
  cases found with
  | none => exact ofOpen clean reading calls
  | some held => exact ofHeld clean closable reading calls onward

end SecondReading

/-- A second pass over what the first one has read. The induction is on that reading. -/
theorem Reading.again {before text : List Char} {found : Option (List Piece)}
    (reading : Reading before text found) {after : List Char} (follows : Follows before after) :
    ∀ pieces ∈ found, (∀ call, .call call ∈ pieces → occursIn ['*', '/'] call = false) →
      SecondReading after pieces := by
  induction reading generalizing after with
  | done before =>
    rintro _ ⟨⟩ _
    exact .ofNone rfl fun call => by simp [LiveIn]
  | inert text line =>
    rintro _ ⟨⟩ _
    exact .ofInert (follows.inert line) _
  | @plain before rest c found passed onward inductionHypothesis =>
    simp only [Option.mem_def, Option.map_eq_some_iff]
    rintro _ ⟨pieces, read, rfl⟩ closable
    by_cases line : occursIn ['/', '/'] after = true
    · exact .ofInert line _
    · have again := inductionHypothesis (follows.plain c) pieces read fun call member =>
        closable call (List.mem_cons_of_mem _ member)
      refine .ofPlain ?_ again
      rw [Passed, callOpening?_commented (onward.isCall pieces read), onward.written_eq pieces read]
      refine passed.imp id fun behind => ⟨Bool.eq_false_iff.mpr line, ?_⟩
      rw [List.isPrefixOf_iff_prefix] at behind ⊢
      exact follows.prefix_of (by decide) behind.2
  | @call before text rest found opens closes onward inductionHypothesis =>
    simp only [Option.mem_def, Option.map_eq_some_iff]
    rintro _ ⟨pieces, read, rfl⟩ closable
    have closed : IsCall text :=
      (Reading.call opens closes onward).isCall _ (Option.map_eq_some_iff.mpr ⟨pieces, read, rfl⟩) text
        List.mem_cons_self
    have again := inductionHypothesis (follows.call closed) pieces read fun call member =>
      closable call (List.mem_cons_of_mem _ member)
    by_cases clean : occursIn ['/', '/'] ('/' :: after) = false
    · exact .ofCall closed clean (closable text List.mem_cons_self) again
    · rw [Bool.not_eq_false] at clean
      refine .ofNone ?_ fun call => ?_
      · rw [commented_cons]
        exact (callsBehind_passed (.inl (callOpening?_cons_of_ne (by decide) _))).trans
          (callsBehind_inert _ clean)
      · rw [liveIn_call, ← List.reverse_cons, occursIn_reverse, clean]
        simp
  | leftOpen opens stays => simp

end Conformance.Fix
