import Conformance.Text.Classes
import Conformance.Text.LetterCase
import Conformance.Text.Word

/-!
# Search patterns

A pattern is a regular expression with ordered choice: of several ways to match,
the first in the order of writing counts. Matching passes the rest of the pattern
along as a continuation, so that a later failure returns to the last choice. A
repetition is bounded by the characters ahead, because a pass that consumes nothing
ends it.
-/

namespace Conformance

/-- A member of a bracketed set. -/
inductive SetItem where
  | range (low high : Char)
  | digit (negated : Bool)
  | blank (negated : Bool)
  | word (negated : Bool)
  deriving Repr, DecidableEq

/-- The expressions that patterns are made of. -/
inductive Regex where
  | empty
  | char (c : Char)
  | anyChar
  | oneOf (negated : Bool) (items : List SetItem)
  | seq (first second : Regex)
  | either (first second : Regex)
  /-- At least `least` passes, at most `most` if given. -/
  | loop (body : Regex) (least : Nat) (most : Option Nat) (greedy : Bool)
  | group (index : Nat) (body : Regex)
  /-- The text that a group has matched, once more. -/
  | again (index : Nat)
  | textStart
  | textEnd
  | lineStart
  | lineEnd
  | wordEdge
  | notWordEdge
  deriving Repr, DecidableEq

/-- A regular expression as it was written, and its meaning. -/
structure Pattern where
  source : String
  ignoreCase : Bool
  regex : Regex
  deriving Repr, DecidableEq

namespace Regex

open Text

/-- A place in a text: the character before it, the characters ahead, and its
distance from the start. -/
structure Place where
  before : Option Char
  ahead : List Char
  offset : Nat
  deriving Repr, DecidableEq

/-- The place behind the next character. -/
def Place.step (place : Place) (c : Char) (rest : List Char) : Place := ⟨some c, rest, place.offset + 1⟩

/-- A matched group: its number, where it began, and its text. -/
structure Capture where
  index : Nat
  start : Nat
  text : List Char
  deriving Repr, DecidableEq

/-- What remains to be matched behind a place. -/
abbrev Continuation (β : Type) := Place → List Capture → Option β

/-- A set member matches a character. -/
def itemMatches (ignoreCase : Bool) (c : Char) : SetItem → Bool
  | .range low high =>
    (low ≤ c && c ≤ high) ||
      (ignoreCase && (caseForms c).any fun code => low.toNat ≤ code && code ≤ high.toNat)
  | .digit negated => isDecimalDigit c != negated
  | .blank negated => isBlank c != negated
  | .word negated => isWord c != negated

/-- Whether a word begins or ends at a place. -/
def atWordEdge (place : Place) : Bool :=
  let wordBefore := place.before.any isWord
  let wordAhead := place.ahead.head?.any isWord
  wordBefore != wordAhead

/-- Consume one character that passes a test. -/
def consume {β : Type} (test : Char → Bool) (next : Continuation β) : Continuation β :=
  fun place captures =>
    match place.ahead with
    | c :: rest => if test c then next (place.step c rest) captures else none
    | [] => none

/-- Consume a given text. -/
def consumeText {β : Type} (ignoreCase : Bool) : List Char → Continuation β → Continuation β
  | [], next => next
  | w :: wanted, next =>
    consume (fun c => c == w || (ignoreCase && sameLetter c w)) (consumeText ignoreCase wanted next)

/-- Repeat a body. The first number bounds the passes; a pass that consumes nothing
ends the repetition, once it has the passes that it needs. -/
def repeated {β : Type} (body : Continuation β → Continuation β) (greedy : Bool)
    (next : Continuation β) : Nat → Nat → Option Nat → Continuation β
  | 0, least, _ => fun place captures => if least = 0 then next place captures else none
  | bound + 1, least, most => fun place captures =>
    let another : Option β :=
      if most = some 0 then none
      else body (fun place' captures' =>
        if place'.offset = place.offset ∧ least ≤ 1 then next place' captures'
        else repeated body greedy next bound (least - 1) (most.map (· - 1)) place' captures') place
          captures
    if least > 0 then another
    else if greedy then another.orElse fun _ => next place captures
    else (next place captures).orElse fun _ => another

/-- Match an expression at a place and go on with what remains. -/
def run {β : Type} (ignoreCase : Bool) : Regex → Continuation β → Continuation β
  | .empty, next => next
  | .char wanted, next => consume (fun c => c == wanted || (ignoreCase && sameLetter c wanted)) next
  | .anyChar, next => consume (· != '\n') next
  | .oneOf negated items, next =>
    consume (fun c => items.any (itemMatches ignoreCase c) != negated) next
  | .seq first second, next => run ignoreCase first (run ignoreCase second next)
  | .either first second, next => fun place captures =>
    (run ignoreCase first next place captures).orElse fun _ =>
      run ignoreCase second next place captures
  | .loop body least most greedy, next => fun place captures =>
    repeated (run ignoreCase body) greedy next (place.ahead.length + least + 1) least most place
      captures
  | .group index body, next => fun place captures =>
    run ignoreCase body (fun place' captures' =>
      next place' (⟨index, place.offset, place.ahead.take (place'.offset - place.offset)⟩ ::
        captures')) place captures
  | .again index, next => fun place captures =>
    match captures.find? (·.index == index) with
    | some capture => consumeText ignoreCase capture.text next place captures
    | none => none
  | .textStart, next => fun place captures =>
    if place.offset = 0 then next place captures else none
  | .textEnd, next => fun place captures =>
    if place.ahead.isEmpty ∨ place.ahead = ['\n'] then next place captures else none
  | .lineStart, next => fun place captures =>
    if place.offset = 0 ∨ place.before = some '\n' then next place captures else none
  | .lineEnd, next => fun place captures =>
    if place.ahead.head?.all (· == '\n') then next place captures else none
  | .wordEdge, next => fun place captures =>
    if atWordEdge place then next place captures else none
  | .notWordEdge, next => fun place captures =>
    if atWordEdge place then none else next place captures

/-- A match: where it begins and ends, and its groups. -/
structure Match where
  start : Nat
  stop : Nat
  text : List Char
  captures : List Capture
  deriving Repr, DecidableEq

/-- The text of a group; a group that took no part has none. -/
def Match.group? (found : Match) (index : Nat) : Option (List Char) :=
  (found.captures.find? (·.index == index)).map (·.text)

/-- The match that begins exactly at a place. -/
def matchAt (ignoreCase : Bool) (regex : Regex) (place : Place) : Option Match :=
  run ignoreCase regex (fun place' captures =>
    some ⟨place.offset, place'.offset, place.ahead.take (place'.offset - place.offset), captures⟩)
    place []

/-- The leftmost match from a place on. -/
def searchFrom (ignoreCase : Bool) (regex : Regex) :
    (ahead : List Char) → (before : Option Char) → (offset : Nat) → Option Match
  | [], before, offset => matchAt ignoreCase regex ⟨before, [], offset⟩
  | c :: rest, before, offset =>
    (matchAt ignoreCase regex ⟨before, c :: rest, offset⟩).orElse fun _ =>
      searchFrom ignoreCase regex rest (some c) (offset + 1)

/-- All matches from left to right, each behind the one before. Every match must
consume something; an empty one ends the list. -/
def matchesFrom (ignoreCase : Bool) (regex : Regex) :
    (bound : Nat) → List Char → Option Char → Nat → List Match
  | 0, _, _, _ => []
  | bound + 1, ahead, before, offset =>
    match searchFrom ignoreCase regex ahead before offset with
    | none => []
    | some found =>
      let consumed := found.stop - offset
      if found.text.isEmpty then [found]
      else found :: matchesFrom ignoreCase regex bound (ahead.drop consumed) found.text.getLast?
        found.stop

end Regex

namespace Pattern

/-- The leftmost match in a text. -/
def search (pattern : Pattern) (text : List Char) : Option Regex.Match :=
  pattern.regex.searchFrom pattern.ignoreCase text none 0

/-- Whether the pattern matches anywhere in a text. -/
def occursIn (pattern : Pattern) (text : List Char) : Bool := (pattern.search text).isSome

/-- The match at the very start of a text. -/
def matchStart (pattern : Pattern) (text : List Char) : Option Regex.Match :=
  pattern.regex.matchAt pattern.ignoreCase ⟨none, text, 0⟩

/-- All matches in a text, from left to right. -/
def allMatches (pattern : Pattern) (text : List Char) : List Regex.Match :=
  pattern.regex.matchesFrom pattern.ignoreCase (text.length + 1) text none 0

/-- A text with the given parts replaced; the parts stand in order and the offset is
that of the text's first character. -/
def splice (replacement : Regex.Match → List Char) :
    List Regex.Match → (offset : Nat) → List Char → List Char
  | [], _, text => text
  | found :: later, offset, text =>
    text.take (found.start - offset) ++ replacement found ++
      splice replacement later found.stop (text.drop (found.stop - offset))

/-- Replace every match. -/
def replaceAll (pattern : Pattern) (replacement : Regex.Match → List Char) (text : List Char) :
    List Char :=
  splice replacement (pattern.allMatches text) 0 text

/-- Replace the leftmost match. -/
def replaceFirst (pattern : Pattern) (replacement : Regex.Match → List Char) (text : List Char) :
    List Char :=
  splice replacement (pattern.search text).toList 0 text

end Pattern

end Conformance
