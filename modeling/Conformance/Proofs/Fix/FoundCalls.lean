import Conformance.Proofs.Fix.SecondReading

/-!
# Which calls are found

A call that is found opens with one of the beginnings, is closed on its line and takes a semicolon with
it. The calls that are found on a line are told place by place: where a call begins, either it is found,
or it is inside one that is, or a line comment is somewhere before it or the opening of a comment directly
before it.
-/

namespace Conformance.Fix

open Text

/-- A call of the console in front of the rest of its line: it ends where its first parenthesis is closed,
or behind a semicolon there. -/
def ClosedCall (call rest : List Char) : Prop :=
  ∃ method ∈ consoleMethods, ∃ inner semicolon,
    call = "console.".toList ++ method ++ '(' :: inner ++ semicolon ∧
    callEnd? ('(' :: inner ++ (semicolon ++ rest)) = some ('(' :: inner).length ∧
    (semicolon = [';'] ∨ semicolon = [] ∧ rest.head? ≠ some ';')

/-- A call begins with its one first character. -/
theorem ClosedCall.exists_cons {call rest : List Char} (closed : ClosedCall call rest) :
    ∃ others, call = 'c' :: others := by
  obtain ⟨_, _, _, _, rfl, _⟩ := closed
  exact ⟨_, rfl⟩

/-- No beginning of a call is the beginning of another one. -/
theorem opening_unique {text first second : List Char} (one : first ∈ openings) (other : second ∈ openings)
    (begins : first <+: text) (too : second <+: text) : first = second := by
  have apart : ∀ first ∈ openings, ∀ second ∈ openings, first <+: second → first = second := by
    decide +kernel
  rcases List.prefix_or_prefix_of_prefix begins too with shorter | shorter
  · exact apart first one second other shorter
  · exact (apart second other first one shorter).symm

/-- A text with the beginning of a call opens one. -/
theorem callOpening?_append_of_mem {opening : List Char} (member : opening ∈ openings) (rest : List Char) :
    callOpening? (opening ++ rest) = some (opening.length - 1) := by
  have begins : opening <+: opening ++ rest := List.prefix_append _ _
  rw [callOpening?_eq]
  cases found : openings.find? (·.isPrefixOf (opening ++ rest)) with
  | none =>
    have missed := List.find?_eq_none.mp found opening member
    exact absurd (List.isPrefixOf_iff_prefix.mpr begins) missed
  | some other =>
    have too := List.find?_some (p := fun other : List Char => other.isPrefixOf (opening ++ rest)) found
    rw [opening_unique (List.mem_of_find?_eq_some found) member (List.isPrefixOf_iff_prefix.mp too) begins]
    rfl

/-- A name of a method in front of a parenthesis opens a call, and the rest of the call is measured from that
parenthesis on. -/
theorem callLength?_name {method : List Char} (known : method ∈ consoleMethods) (behind : List Char) :
    callLength? ("console.".toList ++ method ++ '(' :: behind) =
      (callEnd? ('(' :: behind)).map fun length => ("console.".toList ++ method).length + length +
        if (('(' :: behind).drop length).head? = some ';' then 1 else 0 := by
  have opens := callOpening?_append_of_mem (List.mem_map_of_mem known) behind
  have width :
      ("console.".toList ++ (method ++ ['('])).length - 1 = ("console.".toList ++ method).length := by
    simp only [List.length_append, List.length_singleton]
    omega
  have split : "console.".toList ++ (method ++ ['(']) ++ behind =
      "console.".toList ++ method ++ '(' :: behind := by simp
  rw [width, split] at opens
  rw [callLength?, opens, Option.bind_some, List.drop_left]
  simp only [← List.drop_drop, List.drop_left]

/-- A call is closed exactly if it takes its own length. -/
theorem closedCall_iff {call rest : List Char} :
    ClosedCall call rest ↔ callLength? (call ++ rest) = some call.length := by
  constructor
  · rintro ⟨method, known, inner, semicolon, rfl, ends, either⟩
    have whole : "console.".toList ++ method ++ '(' :: inner ++ semicolon ++ rest =
        "console.".toList ++ method ++ '(' :: (inner ++ (semicolon ++ rest)) := by simp
    rw [whole, callLength?_name known, ← List.cons_append, ends, Option.map_some, List.drop_left]
    refine congrArg some ?_
    rcases either with rfl | ⟨rfl, other⟩
    · rw [List.singleton_append, List.head?_cons, if_pos rfl]
      simp only [List.length_append, List.length_singleton]
    · rw [List.nil_append, if_neg other]
      simp only [List.length_append, List.length_nil]
  · intro closes
    obtain ⟨opening, member, begins, _⟩ : ∃ opening ∈ openings, opening <+: call ++ rest ∧ True := by
      rw [callLength?, Option.bind_eq_some_iff] at closes
      obtain ⟨width, opens, _⟩ := closes
      obtain ⟨opening, member, begins, _⟩ := opening_of_callOpening? opens
      exact ⟨opening, member, begins, trivial⟩
    obtain ⟨method, known, rfl⟩ := List.mem_map.mp member
    obtain ⟨behind, whole⟩ := begins
    have split : call ++ rest = "console.".toList ++ method ++ '(' :: behind := by
      rw [← whole]
      simp
    rw [split, callLength?_name known, Option.map_eq_some_iff] at closes
    obtain ⟨length, ends, counted⟩ := closes
    -- What is closed begins with the parenthesis that opens it, so it holds at least that one.
    obtain ⟨core, after, rfl, rfl⟩ :
        ∃ core after, behind = core ++ after ∧ length = ('(' :: core).length := by
      obtain ⟨_ | ⟨c, inner⟩, after, within, size, _⟩ := callEndFrom_closes ends
      · simp at within
      · obtain ⟨rfl, rfl⟩ := List.cons.inj within
        refine ⟨inner ++ [')'], after, by simp, ?_⟩
        simp only [List.length_cons, List.length_append, List.length_nil] at size ⊢
        omega
    rw [← List.cons_append, List.drop_left] at counted
    by_cases semicolon : after.head? = some ';'
    · obtain ⟨others, rfl⟩ : ∃ others, after = ';' :: others := List.head?_eq_some_iff.mp semicolon
      have halves : call = "console.".toList ++ method ++ '(' :: core ++ [';'] ∧ rest = others := by
        refine List.append_inj (by rw [split]; simp) ?_
        rw [if_pos semicolon] at counted
        simp only [List.length_append, List.length_singleton, ← counted]
      obtain ⟨rfl, rfl⟩ := halves
      exact ⟨method, known, core, [';'], rfl, ends, .inl rfl⟩
    · have halves : call = "console.".toList ++ method ++ '(' :: core ∧ rest = after := by
        refine List.append_inj (by rw [split]; simp) ?_
        rw [if_neg semicolon] at counted
        simp only [List.length_append, ← counted, Nat.add_zero]
      obtain ⟨rfl, rfl⟩ := halves
      exact ⟨method, known, core, [], by simp, ends, .inr ⟨rfl, semicolon⟩⟩

/-- A text is split at each of its places. -/
theorem exists_split_at {text : List Char} {place : Nat} (within : place < text.length) :
    ∃ front c back, text = front ++ c :: back ∧ front.length = place :=
  ⟨text.take place, text[place], text.drop (place + 1),
    (List.take_append_drop place text).symm.trans (congrArg _ (List.drop_eq_getElem_cons within)),
    List.length_take_of_le (Nat.le_of_lt within)⟩

/-- Where the calls of some pieces stand. -/
theorem mem_spansOf_iff {offset : Nat} {pieces : List Piece} {span : Span} :
    span ∈ spansOf offset pieces ↔ ∃ earlier call later, pieces = earlier ++ .call call :: later ∧
      span = ⟨offset + (written earlier).length, offset + (written earlier).length + call.length⟩ := by
  induction pieces generalizing offset with
  | nil => simp [spansOf]
  | cons piece pieces inductionHypothesis =>
    cases piece with
    | plain c =>
      rw [spansOf, inductionHypothesis]
      constructor
      · rintro ⟨earlier, call, later, rfl, rfl⟩
        refine ⟨.plain c :: earlier, call, later, rfl, ?_⟩
        simp [Piece.written, Nat.add_assoc, Nat.add_comm 1]
      · rintro ⟨_ | ⟨first, earlier⟩, call, later, whole, rfl⟩
        · cases whole
        · obtain ⟨rfl, rfl⟩ := List.cons.inj whole
          refine ⟨earlier, call, later, rfl, ?_⟩
          simp [Piece.written, Nat.add_assoc, Nat.add_comm 1]
    | call text =>
      rw [spansOf, List.mem_cons, inductionHypothesis]
      constructor
      · rintro (rfl | ⟨earlier, call, later, rfl, rfl⟩)
        · exact ⟨[], text, pieces, rfl, rfl⟩
        · refine ⟨.call text :: earlier, call, later, rfl, ?_⟩
          simp [Piece.written, Nat.add_assoc]
      · rintro ⟨_ | ⟨first, earlier⟩, call, later, whole, rfl⟩
        · obtain ⟨same, rfl⟩ := List.cons.inj whole
          cases same
          exact .inl rfl
        · obtain ⟨rfl, rfl⟩ := List.cons.inj whole
          refine .inr ⟨earlier, call, later, rfl, ?_⟩
          simp [Piece.written, Nat.add_assoc]

/-- The calls of some pieces stand one behind the other. -/
theorem stop_le_of_start_lt {offset : Nat} {pieces : List Piece} {first second : Span}
    (one : first ∈ spansOf offset pieces) (other : second ∈ spansOf offset pieces)
    (before : first.start < second.start) : first.stop ≤ second.start := by
  induction pieces generalizing offset with
  | nil => cases one
  | cons piece pieces inductionHypothesis =>
    cases piece with
    | plain c => exact inductionHypothesis one other
    | call text =>
      rcases List.mem_cons.mp other with rfl | later
      · have behind := (le_of_mem_spansOf first one).1
        exact absurd before (Nat.not_lt.mpr behind)
      · rcases List.mem_cons.mp one with rfl | too
        · exact (le_of_mem_spansOf second later).1
        · exact inductionHypothesis too later

/-- A character of a line is a piece of its own, or in a call. -/
theorem piece_at {pieces : List Piece} {before rest : List Char} {c : Char}
    (whole : written pieces = before ++ c :: rest) :
    (∃ earlier later, pieces = earlier ++ .plain c :: later ∧ written earlier = before ∧
      written later = rest) ∨
    ∃ earlier call later front back, pieces = earlier ++ .call call :: later ∧ call = front ++ c :: back ∧
      written earlier ++ front = before ∧ back ++ written later = rest := by
  induction pieces generalizing before with
  | nil => simp at whole
  | cons piece pieces inductionHypothesis =>
    rw [written_cons] at whole
    rcases List.append_eq_append_iff.mp whole with ⟨onward, rfl, behind⟩ | ⟨back, inside, behind⟩
    · rcases inductionHypothesis behind with ⟨earlier, later, rfl, rfl, rfl⟩ |
        ⟨earlier, call, later, front, back, rfl, rfl, rfl, rfl⟩
      · exact .inl ⟨piece :: earlier, later, rfl, rfl, rfl⟩
      · exact .inr ⟨piece :: earlier, _, later, front, back, rfl, rfl, by simp, rfl⟩
    · cases back with
      | nil =>
        rw [List.nil_append] at behind
        rw [List.append_nil] at inside
        have whole : written pieces = [] ++ c :: rest := behind.symm
        rcases inductionHypothesis whole with ⟨earlier, later, rfl, none, rfl⟩ |
          ⟨earlier, call, later, front, back, rfl, rfl, none, rfl⟩
        · exact .inl ⟨piece :: earlier, later, rfl, by simp [none, inside], rfl⟩
        · exact .inr ⟨piece :: earlier, _, later, front, back, rfl, rfl, by simp [none, inside], rfl⟩
      | cons d back =>
        obtain ⟨rfl, rfl⟩ := List.cons.inj behind
        cases piece with
        | plain d =>
          obtain ⟨rfl, same⟩ | ⟨_, nothing⟩ := List.append_eq_singleton_iff.mp inside.symm
          · cases same
            exact .inl ⟨[], pieces, rfl, rfl, rfl⟩
          · cases nothing
        | call text =>
          exact .inr ⟨[], text, pieces, before, back, rfl, inside, rfl, rfl⟩

/-- A call that is found opens where nothing before it puts it out of use, and is closed. -/
theorem Reading.opens {before text : List Char} {found : Option (List Piece)}
    (reading : Reading before text found) : ∀ pieces ∈ found, ∀ earlier call later,
      pieces = earlier ++ .call call :: later →
        Opens ((written earlier).reverse ++ before) (call ++ written later) ∧
          ClosedCall call (written later) := by
  induction reading with
  | done before => simp
  | inert text line =>
    rintro _ ⟨⟩ earlier call later whole
    have member : Piece.call call ∈ text.map Piece.plain := by simp [whole]
    simp at member
  | @plain before rest c found passed onward inductionHypothesis =>
    simp only [Option.mem_def, Option.map_eq_some_iff]
    rintro _ ⟨pieces, read, rfl⟩ (_ | ⟨first, earlier⟩) call later whole
    · cases whole
    · obtain ⟨rfl, rfl⟩ := List.cons.inj whole
      simpa [Piece.written] using inductionHypothesis _ read earlier call later rfl
  | @call before text rest found opens closes onward inductionHypothesis =>
    simp only [Option.mem_def, Option.map_eq_some_iff]
    rintro _ ⟨pieces, read, rfl⟩ (_ | ⟨first, earlier⟩) call later whole
    · obtain ⟨same, rfl⟩ := List.cons.inj whole
      cases same
      rw [onward.written_eq _ read]
      exact ⟨opens, closedCall_iff.mpr closes⟩
    · obtain ⟨rfl, rfl⟩ := List.cons.inj whole
      simpa [Piece.written] using inductionHypothesis _ read earlier call later rfl
  | leftOpen opens stays => simp

/-- Where a character is passed no call begins, or one that is out of use. -/
theorem Reading.passes {before text : List Char} {found : Option (List Piece)}
    (reading : Reading before text found) : ∀ pieces ∈ found, ∀ earlier c later,
      pieces = earlier ++ .plain c :: later → callOpening? (c :: written later) = none ∨
        occursIn ['/', '/'] ((written earlier).reverse ++ before) = true ∨
        [' ', '*', '/'].isPrefixOf ((written earlier).reverse ++ before) = true := by
  induction reading with
  | done before => simp
  | @inert before text line =>
    rintro _ ⟨⟩ earlier c later whole
    refine .inr (.inl ?_)
    rw [occursIn_iff] at line ⊢
    exact line.trans (List.suffix_append _ _).isInfix
  | @plain before rest c found passed onward inductionHypothesis =>
    simp only [Option.mem_def, Option.map_eq_some_iff]
    rintro _ ⟨pieces, read, rfl⟩ (_ | ⟨first, earlier⟩) d later whole
    · obtain ⟨same, rfl⟩ := List.cons.inj whole
      cases same
      rw [onward.written_eq _ read]
      exact passed.imp id fun behind => .inr behind.2
    · obtain ⟨rfl, rfl⟩ := List.cons.inj whole
      simpa [Piece.written] using inductionHypothesis _ read earlier d later rfl
  | @call before text rest found opens closes onward inductionHypothesis =>
    simp only [Option.mem_def, Option.map_eq_some_iff]
    rintro _ ⟨pieces, read, rfl⟩ (_ | ⟨first, earlier⟩) d later whole
    · cases whole
    · obtain ⟨rfl, rfl⟩ := List.cons.inj whole
      simpa [Piece.written] using inductionHypothesis _ read earlier d later rfl
  | leftOpen opens stays => simp

/-- A call that is found opens where it stands, in use, and is closed there. -/
theorem exists_found {line : List Char} {spans : List Span} (found : callSpans line = some spans)
    {span : Span} (member : span ∈ spans) :
    ∃ before call behind, line = before ++ (call ++ behind) ∧
      span = ⟨before.length, before.length + call.length⟩ ∧ ClosedCall call behind ∧
      callOpening? (call ++ behind) ≠ none ∧ occursIn ['/', '/'] before = false ∧
      endsWith "/* ".toList before = false := by
  obtain ⟨pieces, reading, rfl, rfl, _⟩ := exists_pieces found
  obtain ⟨earlier, call, later, rfl, rfl⟩ := mem_spansOf_iff.mp member
  obtain ⟨⟨opens, noLine, apart⟩, closed⟩ := reading.opens _ rfl earlier call later rfl
  rw [List.append_nil] at noLine apart
  rw [occursIn_reverse] at noLine
  refine ⟨written earlier, call, written later, ?_, ?_, closed, opens, noLine, apart⟩
  · simp [written, Piece.written]
  · rw [Nat.zero_add]

/-- Where a call is found it begins with its one first character. -/
theorem exists_found_at {before rest : List Char} {c : Char} {spans : List Span}
    (found : callSpans (before ++ c :: rest) = some spans) {span : Span} (member : span ∈ spans)
    (here : span.start = before.length) :
    c = 'c' ∧ callOpening? (c :: rest) ≠ none ∧ occursIn ['/', '/'] before = false ∧
      endsWith "/* ".toList before = false := by
  obtain ⟨front, call, behind, whole, rfl, _, opens, noLine, apart⟩ := exists_found found member
  obtain ⟨rfl, same⟩ := List.append_inj whole here.symm
  rw [← same] at opens
  refine ⟨?_, opens, noLine, apart⟩
  by_contra other
  exact opens (callOpening?_cons_of_ne other rest)

/-- What stands in the part of a call is the call. -/
theorem of_eq_call (before call behind : List Char) :
    Span.of (before ++ (call ++ behind)) ⟨before.length, before.length + call.length⟩ = call := by
  rw [Span.of, List.drop_left, Nat.add_sub_cancel_left, List.take_left]

/-- Where a call begins it is found, or is inside one that is, or something before it puts it out of
use. -/
theorem covered_iff {before rest : List Char} {c : Char} {spans : List Span}
    (found : callSpans (before ++ c :: rest) = some spans) (begins : callOpening? (c :: rest) ≠ none) :
    (∃ span ∈ spans, span.start ≤ before.length ∧ before.length < span.stop) ↔
      occursIn ['/', '/'] before = false ∧ endsWith "/* ".toList before = false ∨
        ∃ span ∈ spans, span.start < before.length ∧ before.length < span.stop := by
  constructor
  · rintro ⟨span, member, starts, stops⟩
    rcases Nat.lt_or_eq_of_le starts with earlier | here
    · exact .inr ⟨span, member, earlier, stops⟩
    · obtain ⟨_, _, noLine, apart⟩ := exists_found_at found member here
      exact .inl ⟨noLine, apart⟩
  · rintro (⟨noLine, apart⟩ | ⟨span, member, starts, stops⟩)
    · obtain ⟨pieces, reading, rfl, whole, _⟩ := exists_pieces found
      rcases piece_at whole with ⟨earlier, later, rfl, rfl, rfl⟩ |
        ⟨earlier, call, later, front, back, rfl, rfl, rfl, rfl⟩
      · have passed := reading.passes _ rfl earlier c later rfl
        rw [List.append_nil, occursIn_reverse] at passed
        rcases passed with none | line | behind
        · exact absurd none begins
        · rw [noLine] at line
          cases line
        · rw [show [' ', '*', '/'].isPrefixOf (written earlier).reverse = false from apart] at behind
          cases behind
      · refine ⟨_, mem_spansOf_iff.mpr ⟨earlier, _, later, rfl, rfl⟩, ?_, ?_⟩
        · simp
        · simp
    · exact ⟨span, member, Nat.le_of_lt starts, stops⟩

end Conformance.Fix
