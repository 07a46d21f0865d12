import Conformance.Fix.ConsoleCalls
import Conformance.Proofs.Text.Parts
import Mathlib.Data.List.Basic
import Mathlib.Tactic.Common

/-!
# Console calls

A call has one of a few beginnings, and ends at the parenthesis that closes its first one or at a
semicolon behind it. Both are found where they stand, so what is behind a text matters to a call in
it only if the call is not closed within the text.
-/

namespace Conformance.Fix

open Text

/-- The beginnings of console calls. -/
def openings : List (List Char) := consoleMethods.map fun method => "console.".toList ++ (method ++ ['('])

/-- Every beginning has one character that is nowhere else in it, the first, and no blank, stroke,
star, closing parenthesis or semicolon. -/
theorem openings_shape : ∀ opening ∈ openings, ∃ others, opening = 'c' :: others ∧
    ∀ c ∈ ['c', ' ', '/', '*', ')', ';'], c ∉ others := by
  intro opening member
  refine ⟨opening.tail, ?_, ?_⟩
  · revert opening
    decide +kernel
  · simp only [List.forall_mem_cons, List.not_mem_nil, false_imp_iff, implies_true, and_true]
    revert opening
    decide +kernel

/-- A beginning of a call is one of the given ones. -/
theorem callOpening?_eq (text : List Char) :
    callOpening? text = (openings.find? (·.isPrefixOf text)).map (·.length - 1) := by
  rw [callOpening?]
  cases named : dropStart? "console.".toList text with
  | none =>
    have other : ∀ opening ∈ openings, opening.isPrefixOf text = false := by
      intro opening member
      obtain ⟨method, _, rfl⟩ := List.mem_map.mp member
      rw [Bool.eq_false_iff, Ne, List.isPrefixOf_iff_prefix]
      rintro ⟨rest, rfl⟩
      have found := dropStart?_eq_some_iff.mpr (List.append_assoc "console.".toList (method ++ ['(']) rest)
      rw [named] at found
      cases found
    rw [List.find?_eq_none.mpr fun opening member => by rw [other opening member]; exact Bool.false_ne_true]
    rfl
  | some rest =>
    rw [dropStart?_eq_some_iff] at named
    have begins (method : List Char) :
        ("console.".toList ++ (method ++ ['('])).isPrefixOf text = (method ++ ['(']).isPrefixOf rest := by
      rw [Bool.eq_iff_iff, List.isPrefixOf_iff_prefix, List.isPrefixOf_iff_prefix, named,
        List.prefix_append_right_inj]
    have width (method : List Char) : ("console.".toList ++ (method ++ ['('])).length - 1 =
        "console.".length + method.length := by
      rw [← String.length_toList]
      simp only [List.length_append, List.length_singleton]
      omega
    simp only [openings, List.find?_map, Function.comp_def, begins, Option.map_map, width]

/-- Whether a call begins depends on the beginnings ahead alone. -/
theorem callOpening?_congr {text other : List Char}
    (same : ∀ opening ∈ openings, opening <+: text ↔ opening <+: other) :
    callOpening? text = callOpening? other := by
  rw [callOpening?_eq, callOpening?_eq]
  have filtered : (openings.filter (·.isPrefixOf text)) = openings.filter (·.isPrefixOf other) := by
    refine List.filter_congr fun opening member => ?_
    rw [Bool.eq_iff_iff, List.isPrefixOf_iff_prefix, List.isPrefixOf_iff_prefix, same opening member]
  rw [← List.head?_filter, ← List.head?_filter, filtered]

/-- A call begins with one of the beginnings. -/
theorem opening_of_callOpening? {text : List Char} {width : Nat}
    (opens : callOpening? text = some width) :
    ∃ opening ∈ openings, opening <+: text ∧ opening.length = width + 1 := by
  rw [callOpening?_eq, Option.map_eq_some_iff] at opens
  obtain ⟨opening, found, rfl⟩ := opens
  have member := List.mem_of_find?_eq_some found
  obtain ⟨others, rfl, _⟩ := openings_shape opening member
  have begins := List.find?_some (p := fun opening : List Char => opening.isPrefixOf text) found
  exact ⟨_, member, List.isPrefixOf_iff_prefix.mp begins, rfl⟩

/-- A call begins with the one character that is nowhere else in its beginning. -/
theorem callOpening?_cons_of_ne {c : Char} (other : c ≠ 'c') (rest : List Char) :
    callOpening? (c :: rest) = none := by
  rw [Option.eq_none_iff_forall_ne_some]
  intro width opens
  obtain ⟨opening, member, begins, _⟩ := opening_of_callOpening? opens
  obtain ⟨others, rfl, _⟩ := openings_shape opening member
  exact other (List.cons_prefix_cons.mp begins).1.symm

/-- A call that begins in a text does not reach beyond a character that is in no beginning. -/
theorem callOpening?_append {c d : Char} (apart : d ∈ ['c', ' ', '/', '*', ')', ';'])
    (before behind : List Char) :
    callOpening? (c :: before ++ d :: behind) = callOpening? (c :: before) := by
  refine callOpening?_congr fun opening member => ?_
  obtain ⟨others, rfl, lacks⟩ := openings_shape opening member
  rw [List.cons_append, List.cons_prefix_cons, List.cons_prefix_cons,
    prefix_append_cons_iff (lacks d apart)]

section Steps

variable {depth : Int} {mark c : Char} {passed : Nat} {rest : List Char}

theorem callEndFrom_escaped :
    callEndFrom depth (some mark) passed ('\\' :: c :: rest) =
      callEndFrom depth (some mark) (passed + 2) rest :=
  rfl

theorem callEndFrom_quoted (other : c ≠ '\\') :
    callEndFrom depth (some mark) passed (c :: rest) =
      callEndFrom depth (if c = mark then none else some mark) (passed + 1) rest := by
  rw [callEndFrom]
  exact other

/-- What a character outside quoted text does. -/
theorem callEndFrom_unquoted :
    callEndFrom depth none passed (c :: rest) =
      if isQuote c then callEndFrom depth (some c) (passed + 1) rest
      else if c = '(' then callEndFrom (depth + 1) none (passed + 1) rest
      else if c = ')' then
        if depth = 1 then some (passed + 1) else callEndFrom (depth - 1) none (passed + 1) rest
      else callEndFrom depth none (passed + 1) rest := by
  rw [callEndFrom]

theorem callEndFrom_quote (quote : isQuote c = true) :
    callEndFrom depth none passed (c :: rest) = callEndFrom depth (some c) (passed + 1) rest := by
  rw [callEndFrom_unquoted, if_pos quote]

theorem callEndFrom_opening :
    callEndFrom depth none passed ('(' :: rest) = callEndFrom (depth + 1) none (passed + 1) rest :=
  rfl

theorem callEndFrom_closing (deeper : depth ≠ 1) :
    callEndFrom depth none passed (')' :: rest) = callEndFrom (depth - 1) none (passed + 1) rest := by
  rw [callEndFrom_unquoted, if_neg (by decide), if_neg (by decide), if_pos rfl, if_neg deeper]

theorem callEndFrom_last : callEndFrom 1 none passed (')' :: rest) = some (passed + 1) :=
  rfl

theorem callEndFrom_plain (plain : isQuote c = false) (opening : c ≠ '(') (closing : c ≠ ')') :
    callEndFrom depth none passed (c :: rest) = callEndFrom depth none (passed + 1) rest := by
  rw [callEndFrom_unquoted, plain, if_neg Bool.false_ne_true, if_neg opening, if_neg closing]

end Steps

/-- A parenthesis that closes a call stands in a text, and is found there whatever is behind it. -/
def ClosesWithin (depth : Int) (quote : Option Char) (passed : Nat) (text : List Char) (length : Nat) :
    Prop :=
  ∃ inner rest, text = inner ++ ')' :: rest ∧ length = passed + inner.length + 1 ∧
    ∀ behind, callEndFrom depth quote passed (inner ++ ')' :: behind) = some length

/-- Characters that only change the state stand before what is found behind them. -/
theorem ClosesWithin.step {depth after : Int} {quote mark : Option Char} {passed length : Nat}
    (first : List Char) {text : List Char}
    (closes : ClosesWithin after mark (passed + first.length) text length)
    (moves : ∀ text, callEndFrom depth quote passed (first ++ text) =
      callEndFrom after mark (passed + first.length) text) :
    ClosesWithin depth quote passed (first ++ text) length := by
  obtain ⟨inner, rest, rfl, counted, found⟩ := closes
  refine ⟨first ++ inner, rest, (List.append_assoc ..).symm, ?_, fun behind => ?_⟩
  · rw [List.length_append]
    omega
  · rw [List.append_assoc, moves, found]

/-- The closing parenthesis is found where it stands. -/
theorem callEndFrom_closes {depth : Int} {quote : Option Char} {passed length : Nat} {text : List Char}
    (closed : callEndFrom depth quote passed text = some length) :
    ClosesWithin depth quote passed text length := by
  induction depth, quote, passed, text using callEndFrom.induct with
  | case1 => cases closed
  | case2 => cases closed
  | case3 depth mark passed c rest inductionHypothesis =>
    exact (inductionHypothesis (callEndFrom_escaped.symm.trans closed)).step ['\\', c]
      fun _ => callEndFrom_escaped
  | case4 depth mark passed c rest other inductionHypothesis =>
    exact (inductionHypothesis ((callEndFrom_quoted other).symm.trans closed)).step [c]
      fun _ => callEndFrom_quoted other
  | case5 depth passed c rest quote inductionHypothesis =>
    exact (inductionHypothesis ((callEndFrom_quote quote).symm.trans closed)).step [c]
      fun _ => callEndFrom_quote quote
  | case6 depth passed rest plain inductionHypothesis =>
    exact (inductionHypothesis (callEndFrom_opening.symm.trans closed)).step ['(']
      fun _ => callEndFrom_opening
  | case7 passed rest plain other =>
    rw [callEndFrom_last] at closed
    exact ⟨[], rest, rfl, (Option.some.inj closed).symm, fun behind => closed ▸ callEndFrom_last⟩
  | case8 depth passed rest deeper plain other inductionHypothesis =>
    exact (inductionHypothesis ((callEndFrom_closing deeper).symm.trans closed)).step [')']
      fun _ => callEndFrom_closing deeper
  | case9 depth passed c rest plain opening closing inductionHypothesis =>
    rw [Bool.not_eq_true] at plain
    exact (inductionHypothesis ((callEndFrom_plain plain opening closing).symm.trans closed)).step [c]
      fun _ => callEndFrom_plain plain opening closing

/-- A call that closes is closed whatever is behind it. -/
theorem callEnd?_append {text : List Char} {length : Nat} (closed : callEnd? text = some length)
    (behind : List Char) : callEnd? (text ++ behind) = some length := by
  obtain ⟨inner, rest, rfl, _, found⟩ := callEndFrom_closes closed
  rw [List.append_assoc, List.cons_append]
  exact found _

/-- A call that closes only with what is behind a text closes behind that text. -/
theorem callEnd?_beyond {text behind : List Char} {length : Nat} (left : callEnd? text = none)
    (closed : callEnd? (text ++ behind) = some length) :
    ∃ more rest, behind = more ++ ')' :: rest ∧ length = text.length + more.length + 1 := by
  obtain ⟨inner, rest, whole, counted, found⟩ := callEndFrom_closes closed
  have notWithin (others : List Char) : text ≠ inner ++ ')' :: others := by
    rintro rfl
    have within : callEnd? (inner ++ ')' :: others) = some length := found others
    rw [left] at within
    cases within
  rcases List.append_eq_append_iff.mp whole with ⟨more, rfl, rest'⟩ | ⟨others, shorter, onward⟩
  · refine ⟨more, rest, rest', ?_⟩
    rw [List.length_append] at counted
    omega
  · cases others with
    | nil =>
      refine ⟨[], rest, by simpa using onward.symm, ?_⟩
      rw [List.append_nil] at shorter
      rw [shorter, List.length_nil]
      omega
    | cons c others =>
      obtain ⟨rfl, _⟩ := List.cons.inj onward
      exact absurd shorter (notWithin others)

/-- How many characters a call takes that begins a text, with a semicolon behind it. -/
def callLength? (text : List Char) : Option Nat :=
  (callOpening? text).bind fun width => (callEnd? (text.drop width)).map fun length =>
    width + length + if (text.drop (width + length)).head? = some ';' then 1 else 0

/-- The text of a call: it begins with its one first character, and ends with a closing parenthesis or
a semicolon. -/
def IsCall (text : List Char) : Prop :=
  ∃ inner last, text = 'c' :: (inner ++ [last]) ∧ (last = ')' ∨ last = ';')

/-- What a call takes is the text of a call. -/
theorem call_of_callLength? {text : List Char} {length : Nat} (closes : callLength? text = some length) :
    ∃ call rest, text = call ++ rest ∧ call.length = length ∧ IsCall call := by
  rw [callLength?, Option.bind_eq_some_iff] at closes
  obtain ⟨width, opens, closes⟩ := closes
  obtain ⟨closed, ends, rfl⟩ := Option.map_eq_some_iff.mp closes
  obtain ⟨inner, rest, within, counted, _⟩ := callEndFrom_closes ends
  obtain ⟨begun, taken, size⟩ : ∃ begun, text.take width = 'c' :: begun ∧ begun.length + 1 = width := by
    obtain ⟨opening, member, ⟨behind, rfl⟩, size⟩ := opening_of_callOpening? opens
    have long : ∀ opening ∈ openings, 2 ≤ opening.length := by decide +kernel
    obtain ⟨others, rfl, _⟩ := openings_shape opening member
    have positive := long _ member
    obtain ⟨width, rfl⟩ : ∃ less, width = less + 1 := ⟨width - 1, by omega⟩
    refine ⟨(others ++ behind).take width, rfl, ?_⟩
    rw [List.length_cons] at size
    rw [List.length_take_of_le]
    rw [List.length_append]
    omega
  have whole : text = 'c' :: (begun ++ inner) ++ ')' :: rest := by
    rw [← List.take_append_drop width text, taken, within]
    simp
  have behind : text.drop (width + closed) = rest := by
    rw [← List.drop_drop, within, counted, List.append_cons]
    exact List.drop_left' (by simp)
  rw [behind]
  by_cases semicolon : rest.head? = some ';'
  · obtain ⟨others, rfl⟩ : ∃ others, rest = ';' :: others := List.head?_eq_some_iff.mp semicolon
    refine ⟨'c' :: (begun ++ inner ++ [')'] ++ [';']), others, ?_, ?_, _, ';', rfl, .inr rfl⟩
    · simpa using whole
    · simp only [List.length_cons, List.length_append, List.length_nil, if_pos semicolon]
      omega
  · refine ⟨'c' :: (begun ++ inner ++ [')']), rest, ?_, ?_, _, ')', rfl, .inl rfl⟩
    · simpa using whole
    · simp only [List.length_cons, List.length_append, List.length_nil, if_neg semicolon]
      omega

/-- The beginning of a call is part of the text. -/
theorem width_le {text : List Char} {width : Nat} (opens : callOpening? text = some width) :
    width ≤ text.length := by
  obtain ⟨opening, _, ⟨behind, rfl⟩, size⟩ := opening_of_callOpening? opens
  rw [List.length_append]
  omega

/-- A call that is closed takes the same whatever is behind it, if that is behind a blank. -/
theorem callLength?_append {text : List Char} {length : Nat} (closes : callLength? text = some length)
    (behind : List Char) : callLength? (text ++ ' ' :: behind) = some length := by
  rw [callLength?, Option.bind_eq_some_iff] at closes
  obtain ⟨width, opens, closes⟩ := closes
  obtain ⟨closed, ends, rfl⟩ := Option.map_eq_some_iff.mp closes
  have begins := width_le opens
  obtain ⟨inner, rest, within, counted, _⟩ := callEndFrom_closes ends
  have taken : width + closed ≤ text.length := by
    have size := congrArg List.length within
    rw [List.length_drop, List.length_append, List.length_cons] at size
    omega
  have same : callOpening? (text ++ ' ' :: behind) = some width := by
    cases text with
    | nil => cases opens
    | cons c text => rw [callOpening?_append (by decide), opens]
  have semicolon : ((text ++ ' ' :: behind).drop (width + closed)).head? = some ';' ↔
      (text.drop (width + closed)).head? = some ';' := by
    rw [List.drop_append_of_le_length taken, List.head?_append]
    cases (text.drop (width + closed)).head? with
    | none => simp
    | some c => rfl
  rw [callLength?, same, Option.bind_some, List.drop_append_of_le_length begins, callEnd?_append ends,
    Option.map_some, if_congr semicolon rfl rfl]

/-- A call that is closed only with what is behind a text takes more than the text. -/
theorem callLength?_beyond {text behind : List Char} {length : Nat} (begun : callOpening? text ≠ none)
    (left : callLength? text = none) (closes : callLength? (text ++ ' ' :: behind) = some length) :
    ∃ more rest, ' ' :: behind = more ++ ')' :: rest ∧ text.length + more.length + 1 ≤ length := by
  obtain ⟨width, opens⟩ := Option.ne_none_iff_exists'.mp begun
  have begins := width_le opens
  have same : callOpening? (text ++ ' ' :: behind) = some width := by
    cases text with
    | nil => cases opens
    | cons c text => rw [callOpening?_append (by decide), opens]
  have open' : callEnd? (text.drop width) = none := by
    rw [callLength?, opens] at left
    simpa using left
  rw [callLength?, same, Option.bind_some, List.drop_append_of_le_length begins] at closes
  obtain ⟨closed, ends, rfl⟩ := Option.map_eq_some_iff.mp closes
  obtain ⟨more, rest, split, counted⟩ := callEnd?_beyond open' ends
  refine ⟨more, rest, split, ?_⟩
  rw [List.length_drop] at counted
  omega

end Conformance.Fix
