import Conformance.Fix.Changes
import Conformance.Proofs.Fix.LeadingDirective
import Conformance.Proofs.Fix.InsertedMarks

/-!
# Line ends

A text is cut at its line feeds alone, so a carriage return in front of a line feed is the last character of its
line. A call that is alone on its line loses what is behind it, the carriage return included, and the lines of
the directive never had one; every other line ends as before.
-/

namespace Conformance.Fix

open Text

/-- Every line feed of a text stands behind a carriage return. -/
def FeedsBehindReturns (text : List Char) : Prop :=
  ∀ before behind, text = before ++ '\n' :: behind → before.getLast? = some '\r'

variable {front back : List (List Char)} {line text : List Char}

/-- A last line has nothing behind it. -/
theorem joinLines_concat (front : List (List Char)) (line : List Char) :
    joinLines (front ++ [line]) = front.flatMap (· ++ ['\n']) ++ line := by
  rw [joinLines_append front (List.cons_ne_nil line [])]
  exact congrArg _ (List.append_nil line)

/-- The last character of a text is that of its last line, unless it is a line feed. -/
theorem getLast?_joinLines {c : Char} (other : c ≠ '\n') :
    (joinLines (front ++ [line])).getLast? = some c ↔ line.getLast? = some c := by
  rw [joinLines_concat, List.getLast?_append]
  cases ending : line.getLast? with
  | some d => rw [Option.some_or]
  | none =>
    rw [Option.none_or]
    refine iff_of_false (fun same => ?_) nofun
    exact other (ended_flatMap front c same)

/-- The line feeds stand behind carriage returns exactly if all lines but the last one end in one. -/
theorem feedsBehindReturns_iff :
    FeedsBehindReturns text ↔ ∀ line ∈ (splitLines text).dropLast, line.getLast? = some '\r' := by
  constructor
  · intro behindReturns line member
    obtain ⟨init, last, cut⟩ := (List.eq_nil_or_concat' (splitLines text)).resolve_left (splitAt_ne_nil text)
    rw [cut, List.dropLast_concat] at member
    obtain ⟨front, back, rfl⟩ := List.append_of_mem member
    have whole : text = joinLines (front ++ [line]) ++ '\n' :: joinLines (back ++ [last]) := by
      rw [← joinLines_splitLines text, cut, List.append_assoc, joinLines_append front (by simp),
        List.cons_append, joinLines_cons line (by simp), joinLines_concat front, List.append_assoc]
    exact (getLast?_joinLines (by decide)).mp (behindReturns _ _ whole)
  · rintro ends before behind rfl
    rw [splitLines, splitAt_append, List.dropLast_append_of_ne_nil (splitAt_ne_nil behind)] at ends
    obtain ⟨front, last, cut⟩ := (List.eq_nil_or_concat' (splitLines before)).resolve_left (splitAt_ne_nil before)
    rw [← joinLines_splitLines before, cut, getLast?_joinLines (by decide)]
    refine ends last (List.mem_append_left _ ?_)
    rw [← splitLines, cut]
    exact List.mem_append_right _ (List.mem_singleton_self last)

/-! Console calls. -/

/-- A call ends with a mark of its own. -/
theorem IsCall.getLast?_ne {call : List Char} (closed : IsCall call) : call.getLast? ≠ some '\r' := by
  obtain ⟨inner, last, rfl, ends⟩ := closed
  rw [← List.cons_append, List.getLast?_concat]
  rcases ends with rfl | rfl <;> decide

/-- A line that ends in a carriage return ends in it with its calls in block comments as well. -/
theorem getLast?_commented {pieces : List Piece} (calls : ∀ call, .call call ∈ pieces → IsCall call)
    (ends : (written pieces).getLast? = some '\r') : (commented pieces).getLast? = some '\r' := by
  rcases List.eq_nil_or_concat' pieces with rfl | ⟨front, last, rfl⟩
  · cases ends
  · rw [written, List.flatMap_append, List.flatMap_singleton] at ends
    rw [commented, List.flatMap_append, List.flatMap_singleton]
    cases last with
    | plain c =>
      rw [Piece.written, List.getLast?_concat] at ends
      rw [Piece.commented, List.getLast?_concat, ends]
    | call text =>
      have closed := calls text (List.mem_append_right _ (List.mem_singleton_self _))
      have other := closed.getLast?_ne
      obtain ⟨inner, last, rfl, _⟩ := closed
      rw [Piece.written, List.getLast?_append] at ends
      rw [← List.cons_append, List.getLast?_concat] at ends other
      exact absurd ends other

/-- A line keeps the carriage return at its end exactly if no call is alone on it. -/
theorem getLast?_commentLine (ends : line.getLast? = some '\r') :
    (commentLine line).getLast? = some '\r' ↔ loneCall? line = none := by
  cases lone : loneCall? line with
  | some span =>
    obtain ⟨indent, call, rest, rfl, _, _, closed, _, parts⟩ := exists_lone lone
    obtain ⟨taken, others, whole, size, shape⟩ := call_of_callLength? (closedCall_iff.mp closed)
    obtain rfl := List.append_inj_left whole size.symm
    refine iff_of_false (fun same => ?_) nofun
    rw [← marked_markedLine, parts, marked_append, marked_cons, marked_own, marked_own] at same
    have other := shape.getLast?_ne
    obtain ⟨inner, last, rfl, _⟩ := shape
    rw [← List.cons_append, List.getLast?_concat] at other
    rw [← List.cons_append, ← List.append_assoc, ← List.append_assoc, List.getLast?_concat] at same
    exact other same
  | none =>
    refine iff_of_true ?_ rfl
    rw [commentLine_of_loneCall?_eq_none lone]
    rcases blockCalls_cases line with none | ⟨found, _⟩
    · rw [none]
      exact ends
    · obtain ⟨pieces, reading, _, whole, _, wrapped, _⟩ := exists_pieces found
      rw [wrapped]
      exact getLast?_commented (reading.isCall pieces rfl) (by rwa [whole])

/-- What the console fixer makes of a text. -/
theorem text_apply_consoleFixer (violation : Violation) (text : List Char) :
    ((Changes.start text).apply consoleFixer violation).text = commentConsole text := by
  rw [Changes.apply, Changes.start, consoleFixer]
  dsimp only
  by_cases same : commentConsole text = text
  · rw [Outcome.ofChange, if_pos same, same]
  · rw [Outcome.ofChange, if_neg same]

/-- What the directive fixer makes of a text. -/
theorem text_apply_directiveFixer (violation : Violation) (text : List Char) :
    ((Changes.start text).apply directiveFixer violation).text =
      if hasDirective text then text else addDirective text := by
  rw [Changes.apply, Changes.start, directiveFixer]
  dsimp only
  cases hasDirective text <;> rfl

/-- The line of the directive has no carriage return at its end. -/
theorem not_feedsBehindReturns_addDirective (text : List Char) : ¬ FeedsBehindReturns (addDirective text) := by
  intro behindReturns
  have inserted : directiveLine ∈ (splitLines (addDirective text)).dropLast := by
    rw [splitLines_addDirective, List.append_assoc, List.dropLast_append_of_ne_nil (by simp)]
    refine List.mem_append_right _ ?_
    rw [List.dropLast_append_of_ne_nil (drop_firstCodeLine text)]
    exact List.mem_append_left _ List.mem_cons_self
  have ends := feedsBehindReturns_iff.mp behindReturns directiveLine inserted
  exact absurd ends (by decide)

/-- **When line ends survive.** In a text whose line feeds all stand behind carriage returns they do so after the
console fixer exactly if no line but the last one has a call alone on it, and after the directive fixer exactly if
there is nothing to insert. -/
theorem lineEnds_survive_iff (ends : FeedsBehindReturns text) (violation : Violation) :
    (FeedsBehindReturns ((Changes.start text).apply consoleFixer violation).text ↔
        ∀ line ∈ (splitLines text).dropLast, loneCall? line = none) ∧
      (FeedsBehindReturns ((Changes.start text).apply directiveFixer violation).text ↔
        hasDirective text = true) := by
  constructor
  · rw [text_apply_consoleFixer, feedsBehindReturns_iff, splitLines_commentConsole, ← List.map_dropLast,
      List.forall_mem_map]
    exact forall₂_congr fun line member => getLast?_commentLine (feedsBehindReturns_iff.mp ends line member)
  · rw [text_apply_directiveFixer]
    cases has : hasDirective text with
    | true => exact iff_of_true ends rfl
    | false => exact iff_of_false (not_feedsBehindReturns_addDirective text) Bool.false_ne_true

/-- A call that shares its line with other code, with carriage returns. -/
def sharedCallWithReturns : List Char := "\"use client\";\r\ngo(); console.log(1);\r\n".toList

/-- Its carriage returns stay behind the comment. -/
theorem lineEnds_survive_shared :
    FeedsBehindReturns sharedCallWithReturns ∧
      ((Changes.start sharedCallWithReturns).apply consoleFixer missingDirective).text =
        "\"use client\";\r\ngo(); /* console.log(1); */\r\n".toList ∧
      FeedsBehindReturns ((Changes.start sharedCallWithReturns).apply consoleFixer missingDirective).text ∧
      FeedsBehindReturns ((Changes.start sharedCallWithReturns).apply directiveFixer missingDirective).text := by
  have ends : FeedsBehindReturns sharedCallWithReturns := feedsBehindReturns_iff.mpr (by decide +kernel)
  obtain ⟨console, directive⟩ := lineEnds_survive_iff ends missingDirective
  exact ⟨ends, by decide +kernel, console.mpr (by decide +kernel), directive.mpr (by decide +kernel)⟩

/-- A call of the console that is alone on its line, and one of a hook, with carriage returns. -/
def loneCallWithReturns : List Char := "console.log(1);\r\nuseState(0);\r\n".toList

/-- The commented line and the lines of the directive end in a line feed alone. -/
theorem loneCall_loses_return :
    FeedsBehindReturns loneCallWithReturns ∧
      ((Changes.start loneCallWithReturns).apply consoleFixer missingDirective).text =
        "// console.log(1);\nuseState(0);\r\n".toList ∧
      ¬ FeedsBehindReturns ((Changes.start loneCallWithReturns).apply consoleFixer missingDirective).text ∧
      ((Changes.start loneCallWithReturns).apply directiveFixer missingDirective).text =
        "\"use client\";\n\nconsole.log(1);\r\nuseState(0);\r\n".toList ∧
      ¬ FeedsBehindReturns ((Changes.start loneCallWithReturns).apply directiveFixer missingDirective).text := by
  refine ⟨feedsBehindReturns_iff.mpr (by decide +kernel), by decide +kernel, ?_, by decide +kernel, ?_⟩ <;>
    · rw [feedsBehindReturns_iff]
      decide +kernel

end Conformance.Fix
