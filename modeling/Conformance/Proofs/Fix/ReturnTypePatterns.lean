import Conformance.Proofs.Fix.ExportPatterns
import Conformance.Proofs.Fix.FunctionHeads
import Conformance.Proofs.Pattern.Sweeping

/-!
# What the patterns for functions take

The patterns for declared functions and for arrow functions in their parts. A match of either is the head of a
function and a body up to the first closing brace, and what it is replaced by is the same head with its return
type, unless the body has the word for returning in it.

The word for asynchronous is found in front of a function wherever it stands there, for a match begins as far to
the left as it can.
-/

namespace Conformance.Fix

open Text Regex Pattern

/-- The word for asynchronous with blanks behind it in a group, if it is there. -/
def optionalAsync (index : Nat) : Regex := .loop (.group index (spelled "async".toList blanks)) 0 (some 1) true

/-- Whatever stands in front of a mark. -/
def textUntil (mark : Char) : Regex := .loop (.oneOf true [.range mark mark]) 0 none true

/-- Parameters in parentheses, in front of something else. -/
def parameterList (behind : Regex) : Regex :=
  .seq (.char '(') (.seq (.group 3 (textUntil ')')) (.seq (.char ')') behind))

/-- A body up to the first closing brace, with blanks in front of it. -/
def bracedBody : Regex :=
  .seq anyBlanks (.seq (.char '\x7b') (.seq (.group 4 (textUntil '\x7d')) (.char '\x7d')))

/-- What is looked for behind the word for asynchronous. -/
def functionParts : Regex :=
  spelled "function".toList (.seq blanks (.seq (.group 2 nameLetters) (.seq anyBlanks
    (parameterList bracedBody))))

/-- A declared function in its parts. -/
theorem simpleFunction_eq : simpleFunction.ignoreCase = false ∧
    simpleFunction.regex = .seq (optionalAsync 1) functionParts := by
  decide +kernel

/-- An arrow function in its parts. -/
theorem simpleArrow_eq : simpleArrow.ignoreCase = false ∧ simpleArrow.regex =
    spelled "const".toList (.seq blanks (.seq (.group 1 nameLetters) (.seq anyBlanks (.seq (.char '=')
      (.seq anyBlanks (.seq (optionalAsync 2) (parameterList (.seq anyBlanks (.seq (.char '=') (.seq (.char '>')
        bracedBody)))))))))) := by
  decide +kernel

variable {place : Place} {text : List Char} {captures : List Capture} {behind : Regex}

/-- A mark in front of something else. -/
theorem takes_mark {mark : Char} (takes : Takes false (.seq (.char mark) behind) place text captures) :
    ∃ place rest, text = mark :: rest ∧ Takes false behind place rest captures := by
  obtain ⟨_, rest, _, _, _, rfl, rfl, _, begins, goesOn⟩ := takes_seq takes
  obtain ⟨rfl, rfl⟩ := takes_char begins
  rw [List.append_nil]
  exact ⟨_, rest, rfl, goesOn⟩

/-- Blanks that part two words, in front of something else. -/
theorem takes_gap (takes : Takes false (.seq blanks behind) place text captures) :
    ∃ (gap : Gap) (place : Place) (rest : List Char), text = gap.val ++ rest ∧
      Takes false behind place rest captures := by
  obtain ⟨gap, rest, _, _, _, rfl, rfl, _, begins, goesOn⟩ := takes_seq takes
  obtain ⟨enough, passes, rfl⟩ :=
    takes_set (fun c => isBlank c = true) (fun c member => by simpa [itemMatches] using member) begins
  rw [List.append_nil]
  exact ⟨⟨gap, List.length_pos_iff.mp enough, passes⟩, _, rest, rfl, goesOn⟩

/-- Any blanks in front of something else. -/
theorem takes_anyBlanks (takes : Takes false (.seq anyBlanks behind) place text captures) :
    ∃ (gap : Blanks) (place : Place) (rest : List Char), text = gap.val ++ rest ∧
      Takes false behind place rest captures := by
  obtain ⟨gap, rest, _, _, _, rfl, rfl, _, begins, goesOn⟩ := takes_seq takes
  obtain ⟨_, passes, rfl⟩ :=
    takes_set (fun c => isBlank c = true) (fun c member => by simpa [itemMatches] using member) begins
  rw [List.append_nil]
  exact ⟨⟨gap, passes⟩, _, rest, rfl, goesOn⟩

/-- A name in front of something else is captured. -/
theorem takes_name {index : Nat} (takes : Takes false (.seq (.group index nameLetters) behind) place text captures) :
    ∃ (name : Name) (place : Place) (start : Nat) (rest : List Char) (others : List Capture),
      text = name.val ++ rest ∧ captures = others ++ [⟨index, start, name.val⟩] ∧
        Takes false behind place rest others := by
  obtain ⟨_, start, name, rest, others, rfl, rfl, ⟨_, letters⟩, onward⟩ := takes_groupBefore (by decide) takes
  exact ⟨⟨name, takes_nameLetters letters⟩, _, start, rest, others, rfl, rfl, onward⟩

/-- What stands in front of a mark does not have it. -/
theorem takes_textUntil {mark : Char} (takes : Takes false (textUntil mark) place text captures) :
    mark ∉ text := by
  have apart : ∀ c, (([SetItem.range mark mark].any (itemMatches false c)) != true) = true → c ≠ mark := by
    rintro c other rfl
    simp [itemMatches] at other
  have others : ∀ c ∈ text, c ≠ mark := by
    refine (takes_loop (fun one => ?_) takes).2.1
    obtain ⟨⟨c, rfl, other⟩, rfl⟩ := takes_oneOf one
    exact ⟨⟨c, rfl, apart c other⟩, rfl⟩
  exact fun member => others mark member rfl

/-- Parameters are captured up to the first closing parenthesis. -/
theorem takes_parameterList (takes : Takes false (parameterList behind) place text captures) :
    ∃ (given : Parameters) (place : Place) (start : Nat) (rest : List Char) (others : List Capture),
      text = '(' :: (given.val ++ ')' :: rest) ∧ captures = others ++ [⟨3, start, given.val⟩] ∧
        Takes false behind place rest others := by
  obtain ⟨_, _, rfl, inside⟩ := takes_mark takes
  obtain ⟨_, start, given, _, others, rfl, rfl, ⟨_, apart⟩, closes⟩ := takes_groupBefore (by decide) inside
  obtain ⟨_, rest, rfl, onward⟩ := takes_mark closes
  exact ⟨⟨given, takes_textUntil apart⟩, _, start, rest, others, rfl, rfl, onward⟩

/-- A body is captured up to its first closing brace. -/
theorem takes_bracedBody (takes : Takes false bracedBody place text captures) :
    ∃ (gap : Blanks) (start : Nat) (body : List Char), text = gap.val ++ '\x7b' :: (body ++ ['\x7d']) ∧
      '\x7d' ∉ body ∧ captures = [⟨4, start, body⟩] := by
  obtain ⟨gap, _, _, rfl, opens⟩ := takes_anyBlanks takes
  obtain ⟨_, _, rfl, inside⟩ := takes_mark opens
  obtain ⟨_, start, body, _, _, rfl, rfl, ⟨_, apart⟩, closes⟩ := takes_groupBefore (by decide) inside
  obtain ⟨rfl, rfl⟩ := takes_char closes
  exact ⟨gap, start, body, rfl, takes_textUntil apart, rfl⟩

/-- What the group for the word for asynchronous captures. -/
def asyncCaptures (index start : Nat) (async : Option Gap) : List Capture :=
  if async.isSome then [⟨index, start, asyncText async⟩] else []

/-- The word for asynchronous is taken once or not at all. -/
theorem takes_async {index : Nat} (takes : Takes false (optionalAsync index) place text captures) :
    ∃ (async : Option Gap) (start : Nat), text = asyncText async ∧ captures = asyncCaptures index start async := by
  cases takes with
  | done => exact ⟨none, 0, rfl, rfl⟩
  | pass _ _ first others =>
    obtain ⟨inner, rfl, word⟩ := takes_group first
    obtain ⟨_, gap, rfl, spaces⟩ := takes_spelled word
    obtain ⟨enough, passes, rfl⟩ :=
      takes_set (fun c => isBlank c = true) (fun c member => by simpa [itemMatches] using member) spaces
    cases others with
    | done =>
      rw [List.append_nil]
      exact ⟨some ⟨gap, List.length_pos_iff.mp enough, passes⟩, _, rfl, rfl⟩
    | pass allowed => exact absurd rfl allowed

/-- The word for asynchronous in front of something else. -/
theorem takes_asyncBefore {index : Nat}
    (takes : Takes false (.seq (optionalAsync index) behind) place text captures) :
    ∃ (async : Option Gap) (place : Place) (start : Nat) (rest : List Char) (others : List Capture),
      text = asyncText async ++ rest ∧ captures = others ++ asyncCaptures index start async ∧
        Takes false behind place rest others := by
  obtain ⟨_, rest, _, _, others, rfl, rfl, _, begins, goesOn⟩ := takes_seq takes
  obtain ⟨async, start, rfl, rfl⟩ := takes_async begins
  exact ⟨async, _, start, rest, others, rfl, rfl, goesOn⟩

/-- A match is a head with a body up to the first closing brace, and its replacement has the return type of the
head unless the body mentions returning. -/
structure IsFunction (isArrow : Bool) (replacement : Match → List Char) (found : Match) (head : Head)
    (body : List Char) : Prop where
  kind : head.isArrow = isArrow
  text : found.text = head.bare ++ '\x7b' :: (body ++ ['\x7d'])
  closes : '\x7d' ∉ body
  group : groupText found 4 = body
  replaced : replacement found =
    if mentionsReturn body then found.text else head.typed ++ '\x7b' :: (body ++ ['\x7d'])

variable {found : Match} {front rest : List Char}

/-- A declared function, as it is found. -/
theorem found_simpleFunction
    (there : FoundAt simpleFunction.ignoreCase simpleFunction.regex place found front rest) :
    ∃ head body, IsFunction false typedFunction found head body := by
  have takes := there.takes
  rw [simpleFunction_eq.1, simpleFunction_eq.2] at takes
  obtain ⟨async, _, _, _, _, split, captured, word⟩ := takes_asyncBefore takes
  obtain ⟨_, _, rfl, spaced⟩ := takes_spelled word
  obtain ⟨afterWord, _, _, rfl, named⟩ := takes_gap spaced
  obtain ⟨name, _, _, _, _, rfl, rfl, further⟩ := takes_name named
  obtain ⟨afterName, _, _, rfl, opens⟩ := takes_anyBlanks further
  obtain ⟨parameters, _, _, _, _, rfl, rfl, braced⟩ := takes_parameterList opens
  obtain ⟨afterParameters, _, body, rfl, closes, rfl⟩ := takes_bracedBody braced
  refine ⟨.function async afterWord name afterName parameters afterParameters, body, rfl, ?_, closes, ?_, ?_⟩
  · rw [split]
    simp [Head.bare, Head.opening_function, Head.parameters, Head.joint]
  · simp [groupText, Match.group?, captured]
  · cases async <;>
      simp [typedFunction, groupText, Match.group?, captured, asyncCaptures, Head.typed, Head.isAsync,
        Head.spacedOpening_function, Head.parameters, Head.spacedJoint]

/-- An arrow function, as it is found. -/
theorem found_simpleArrow (there : FoundAt simpleArrow.ignoreCase simpleArrow.regex place found front rest) :
    ∃ head body, IsFunction true typedArrow found head body := by
  have takes := there.takes
  rw [simpleArrow_eq.1, simpleArrow_eq.2] at takes
  obtain ⟨_, _, split, spaced⟩ := takes_spelled takes
  obtain ⟨afterWord, _, _, rfl, named⟩ := takes_gap spaced
  obtain ⟨name, _, _, _, _, rfl, captured, further⟩ := takes_name named
  obtain ⟨afterName, _, _, rfl, sign⟩ := takes_anyBlanks further
  obtain ⟨_, _, rfl, behindSign⟩ := takes_mark sign
  obtain ⟨afterSign, _, _, rfl, word⟩ := takes_anyBlanks behindSign
  obtain ⟨async, _, _, _, _, rfl, rfl, opens⟩ := takes_asyncBefore word
  obtain ⟨parameters, _, _, _, _, rfl, rfl, behindList⟩ := takes_parameterList opens
  obtain ⟨afterParameters, _, _, rfl, arrow⟩ := takes_anyBlanks behindList
  obtain ⟨_, _, rfl, angle⟩ := takes_mark arrow
  obtain ⟨_, _, rfl, braced⟩ := takes_mark angle
  obtain ⟨afterArrow, _, body, rfl, closes, rfl⟩ := takes_bracedBody braced
  refine ⟨.arrow afterWord name afterName afterSign async parameters afterParameters afterArrow, body, rfl, ?_,
    closes, ?_, ?_⟩
  · rw [split]
    simp [Head.bare, Head.opening_arrow, Head.parameters, Head.joint]
  · simp [groupText, Match.group?, captured]
  · cases async <;>
      simp [typedArrow, groupText, Match.group?, captured, asyncCaptures, Head.typed, Head.isAsync,
        Head.spacedOpening_arrow, Head.parameters, Head.spacedJoint]

/-! What is found with the word for asynchronous in front of it. -/

/-- A text is taken in front of what is taken behind it. -/
theorem takesFirst_spelled {word taken : List Char} {found : List Capture}
    (takes : TakesFirst false behind taken rest fun _ => found) :
    TakesFirst false (spelled word behind) (word ++ taken) rest fun _ => found := by
  induction word with
  | nil => exact takes
  | cons c word inductionHypothesis =>
    have letter : TakesFirst false (.char c) [c] _ fun _ => [] := takesFirst_char c ((word ++ taken) ++ rest)
    have both := letter.seq inductionHypothesis
    rw [List.append_nil] at both
    exact both

/-- Blanks are taken as far as they go. -/
theorem takesFirst_blanks (gap : Gap) (stops : ∀ c ∈ rest.head?, isBlank c = false) :
    TakesFirst false blanks gap.val rest fun _ => [] := by
  have tests (c : Char) : ([SetItem.blank false].any (itemMatches false c) != false) = isBlank c := by
    simp [itemMatches]
  intro β next place captures result ahead matched
  refine repeated_greedy (fun c member => ?_) (fun c first => ?_) (List.length_pos_iff.mpr gap.property.1) ?_
    ahead matched
  · rw [tests, gap.property.2 c member]
  · rw [tests, stops c first]
  · rw [ahead, List.length_append]
    omega

/-- A function is found behind the word for asynchronous if it is found without that word. -/
theorem matchAt_async {gap : Gap} (ahead : place.ahead = ("async".toList ++ gap.val) ++ 'f' :: rest)
    (matched : matchAt false simpleFunction.regex
      (place.past ("async".toList ++ gap.val) ('f' :: rest)) = some found) :
    matchAt false simpleFunction.regex place ≠ none := by
  rw [simpleFunction_eq.2, matchAt] at matched ⊢
  rw [run] at matched
  obtain ⟨taken, behind, captured, split, takes, onward⟩ := goes_run matched
  obtain ⟨async, start, rfl, rfl⟩ := takes_async takes
  cases async with
  | some gap =>
    have first : some 'f' = (asyncText (some gap) ++ behind).head? := congrArg List.head? split
    exact absurd (Option.some.inj first) (by decide)
  | none =>
    obtain rfl : behind = 'f' :: rest := split.symm
    have stops : ∀ c ∈ ('f' :: rest).head?, isBlank c = false := by
      rintro c ⟨⟩
      decide
    have letters : TakesFirst false (spelled "async".toList blanks) ("async".toList ++ gap.val) ('f' :: rest) _ :=
      takesFirst_spelled (takesFirst_blanks gap stops)
    have word := (letters.group 1).once (by rintro ⟨⟩)
    refine word.ne_none ahead fun captures => ?_
    -- Behind the word the same is matched, whatever has been captured in front of it.
    exact covers_run (by decide +kernel) (fun _ _ _ _ => Option.some_ne_none _) _ _ captures
      (ne_of_eq_of_ne onward (Option.some_ne_none _))

end Conformance.Fix
