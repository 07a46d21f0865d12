import Conformance.Proofs.Pattern.Capturing
import Mathlib.Data.List.Induction

/-!
# Matches of a pattern in a text

A search goes from place to place and stops at the first one where the expression matches. So it
finds nothing exactly if no place of the text has a match, and what it finds begins at the first
place that has one.
-/

namespace Conformance.Regex

variable {ignoreCase : Bool} {regex : Regex} {place : Place} {front rest : List Char}

/-- The first place ahead with a match: it is behind some characters, and no place behind fewer of
them has one. -/
structure FirstMatch (ignoreCase : Bool) (regex : Regex) (place : Place) (front rest : List Char) :
    Prop where
  ahead : place.ahead = front ++ rest
  here : matchAt ignoreCase regex (place.past front rest) ≠ none
  first : ∀ earlier later, place.ahead = earlier ++ later → earlier.length < front.length →
    matchAt ignoreCase regex (place.past earlier later) = none

/-- No first place is behind another one. -/
theorem FirstMatch.length_le {other between : List Char}
    (there : FirstMatch ignoreCase regex place front rest)
    (again : FirstMatch ignoreCase regex place other between) : front.length ≤ other.length := by
  by_contra behind
  exact again.here (there.first other between again.ahead (Nat.lt_of_not_le behind))

/-- A search that finds something finds the match at the first place that has one. The induction is
on the text ahead: a place without a match is passed, and the first place behind it stays the first
one. -/
theorem firstMatch_searchFrom {ahead : List Char} {before : Option Char} {offset : Nat} {found : Match}
    (matched : searchFrom ignoreCase regex ahead before offset = some found) :
    ∃ front rest, FirstMatch ignoreCase regex ⟨before, ahead, offset⟩ front rest ∧
      found.start = offset + front.length := by
  have atStart {ahead : List Char} {before : Option Char} {offset : Nat}
      (here : matchAt ignoreCase regex ⟨before, ahead, offset⟩ = some found) :
      FirstMatch ignoreCase regex ⟨before, ahead, offset⟩ [] ahead ∧ found.start = offset := by
    refine ⟨⟨rfl, ?_, fun _ _ _ fewer => absurd fewer (Nat.not_lt_zero _)⟩, ?_⟩
    · rw [Place.past_nil, here]
      exact Option.some_ne_none found
    · obtain ⟨_, there⟩ := foundAt_matchAt here
      exact there.start
  induction ahead generalizing before offset with
  | nil => exact ⟨[], [], atStart matched⟩
  | cons c ahead inductionHypothesis =>
    rw [searchFrom, Option.orElse_eq_or] at matched
    rcases Option.or_eq_some_iff.mp matched with here | ⟨missing, later⟩
    · exact ⟨[], c :: ahead, atStart here⟩
    · obtain ⟨front, rest, there, start⟩ := inductionHypothesis later
      have step (passed left : List Char) :
          (⟨before, c :: ahead, offset⟩ : Place).past (c :: passed) left =
            (⟨some c, ahead, offset + 1⟩ : Place).past passed left :=
        (Place.past_step ⟨before, c :: ahead, offset⟩ c ahead passed left).symm
      refine ⟨c :: front, rest, ⟨congrArg (c :: ·) there.ahead, ?_, ?_⟩, ?_⟩
      · rw [step]
        exact there.here
      · intro earlier left whole fewer
        cases earlier with
        | nil =>
          obtain rfl : c :: ahead = left := whole
          exact missing
        | cons d earlier =>
          obtain ⟨rfl, others⟩ := List.cons.inj whole
          rw [step]
          exact there.first earlier left others (Nat.lt_of_succ_lt_succ fewer)
      · rw [start, List.length_cons, Nat.add_assoc, Nat.add_comm 1]

/-- A search that finds nothing has passed every place, and none has a match. -/
theorem matchAt_of_searchFrom_none {ahead : List Char} {before : Option Char} {offset : Nat}
    (missing : searchFrom ignoreCase regex ahead before offset = none) (passed left : List Char)
    (whole : ahead = passed ++ left) :
    matchAt ignoreCase regex ((⟨before, ahead, offset⟩ : Place).past passed left) = none := by
  induction passed generalizing ahead before offset with
  | nil =>
    obtain rfl : ahead = left := whole
    cases ahead with
    | nil => exact missing
    | cons c ahead =>
      rw [searchFrom, Option.orElse_eq_or] at missing
      exact (Option.or_eq_none_iff.mp missing).1
  | cons c passed inductionHypothesis =>
    subst whole
    rw [List.cons_append, searchFrom, Option.orElse_eq_or] at missing
    rw [List.cons_append, ← Place.past_step _ c (passed ++ left)]
    exact inductionHypothesis (Option.or_eq_none_iff.mp missing).2 rfl

end Conformance.Regex

namespace Conformance.Pattern

open Regex

variable {pattern : Pattern} {text : List Char}

/-- A pattern is found in a text, and its leftmost match is behind some characters, with the given
ones ahead. -/
abbrev FoundFirst (pattern : Pattern) (text front rest : List Char) : Prop :=
  FirstMatch pattern.ignoreCase pattern.regex (startOf text) front rest

/-- A search tells where the leftmost match begins, and finds one if there is any. -/
theorem search_start_iff {start : Nat} :
    (∃ found, pattern.search text = some found ∧ found.start = start) ↔
      ∃ front rest, FoundFirst pattern text front rest ∧ front.length = start := by
  constructor
  · rintro ⟨found, matched, rfl⟩
    obtain ⟨front, rest, there, start⟩ := firstMatch_searchFrom matched
    exact ⟨front, rest, there, (Nat.zero_add _).symm.trans start.symm⟩
  · rintro ⟨front, rest, there, rfl⟩
    cases matched : pattern.search text with
    | none => exact absurd (matchAt_of_searchFrom_none matched front rest there.ahead) there.here
    | some found =>
      obtain ⟨other, between, again, start⟩ := firstMatch_searchFrom matched
      refine ⟨found, rfl, ?_⟩
      rw [start, Nat.zero_add]
      exact Nat.le_antisymm (again.length_le there) (there.length_le again)

end Conformance.Pattern

/-!
## All matches

A text is searched from its beginning to its end, and falls into the matches and the characters between them.
At none of these characters does a match begin. So the matches of a text are known one by one, with what stands
around each of them, and so is the text with the matches replaced.

That a match begins at a place does not depend on what the groups have captured in front of it, unless the
expression asks for the text of a group once more.
-/

namespace Conformance.Regex

open Text

variable {β : Type} {ignoreCase : Bool} {regex : Regex} {place : Place}

/-- A piece of a text that has been searched through: a character that is passed, or a match. -/
inductive Stretch where
  | passed (c : Char)
  | taken (found : Match)
  deriving Repr, DecidableEq

/-- What a piece is in the text. -/
def Stretch.text : Stretch → List Char
  | .passed c => [c]
  | .taken found => found.text

/-- What a piece is with the matches replaced. -/
def Stretch.replaced (replacement : Match → List Char) : Stretch → List Char
  | .passed c => [c]
  | .taken found => replacement found

/-- The match that a piece is. -/
def Stretch.match? : Stretch → Option Match
  | .passed _ => none
  | .taken found => some found

/-- The text of some pieces. -/
def textOf (stretches : List Stretch) : List Char := stretches.flatMap Stretch.text

@[simp] theorem textOf_nil : textOf [] = [] := rfl

@[simp] theorem textOf_cons (stretch : Stretch) (stretches : List Stretch) :
    textOf (stretch :: stretches) = stretch.text ++ textOf stretches := rfl

@[simp] theorem textOf_append (first second : List Stretch) :
    textOf (first ++ second) = textOf first ++ textOf second := List.flatMap_append

@[simp] theorem textOf_passed (text : List Char) : textOf (text.map .passed) = text := by
  induction text with
  | nil => rfl
  | cons c text inductionHypothesis => rw [List.map_cons, textOf_cons, inductionHypothesis]; rfl

/-- A text is searched through from a place on. -/
inductive Sweep (ignoreCase : Bool) (regex : Regex) : Place → List Stretch → Prop where
  | ended {place : Place} (ended : place.ahead = []) : Sweep ignoreCase regex place []
  | passed {place : Place} {c : Char} {rest : List Char} {stretches : List Stretch}
      (ahead : place.ahead = c :: rest) (unmatched : matchAt ignoreCase regex place = none)
      (onward : Sweep ignoreCase regex (place.step c rest) stretches) :
      Sweep ignoreCase regex place (.passed c :: stretches)
  | taken {place : Place} {found : Match} {rest : List Char} {stretches : List Stretch}
      (ahead : place.ahead = found.text ++ rest) (matched : matchAt ignoreCase regex place = some found)
      (onward : Sweep ignoreCase regex (place.past found.text rest) stretches) :
      Sweep ignoreCase regex place (.taken found :: stretches)

/-- Nothing is lost and nothing added. -/
theorem Sweep.textOf_eq {stretches : List Stretch} (sweep : Sweep ignoreCase regex place stretches) :
    textOf stretches = place.ahead := by
  induction sweep with
  | ended ended => rw [ended]; rfl
  | passed ahead _ _ inductionHypothesis => rw [textOf_cons, inductionHypothesis, ahead]; rfl
  | taken ahead _ _ inductionHypothesis => rw [textOf_cons, inductionHypothesis, ahead]; rfl

/-- The later pieces are found from the place behind the earlier ones on. -/
theorem Sweep.behind {earlier later : List Stretch}
    (sweep : Sweep ignoreCase regex place (earlier ++ later)) :
    Sweep ignoreCase regex (place.past (textOf earlier) (textOf later)) later := by
  induction earlier generalizing place with
  | nil =>
    rw [List.nil_append] at sweep
    rw [textOf_nil, sweep.textOf_eq, Place.past_nil]
    exact sweep
  | cons stretch earlier inductionHypothesis =>
    cases sweep with
    | @passed _ c rest _ ahead _ onward =>
      have further := inductionHypothesis onward
      rwa [Place.past_step] at further
    | @taken _ found rest _ ahead _ onward =>
      have further := inductionHypothesis onward
      rwa [Place.past_past] at further

/-- Nothing is matched at a character that is passed. -/
theorem Sweep.unmatched {c : Char} {stretches : List Stretch}
    (sweep : Sweep ignoreCase regex place (.passed c :: stretches)) : matchAt ignoreCase regex place = none := by
  cases sweep with
  | passed _ unmatched _ => exact unmatched

/-- A piece that is a match is the one at its place. -/
theorem Sweep.matched {found : Match} {stretches : List Stretch}
    (sweep : Sweep ignoreCase regex place (.taken found :: stretches)) :
    matchAt ignoreCase regex place = some found := by
  cases sweep with
  | taken _ matched _ => exact matched

/-- Every match among the pieces is found at its place. -/
theorem Sweep.foundAt {stretches : List Stretch} {found : Match}
    (sweep : Sweep ignoreCase regex place stretches) (member : .taken found ∈ stretches) :
    ∃ place rest, FoundAt ignoreCase regex place found [] rest := by
  obtain ⟨earlier, later, rfl⟩ := List.append_of_mem member
  obtain ⟨rest, there⟩ := foundAt_matchAt sweep.behind.matched
  exact ⟨_, rest, there⟩

/-- Behind the last character that every match ends with all characters are passed. The induction is on these
characters, from the last one to the first. -/
theorem passed_behind {stretches : List Stretch} {before suffix : List Char} {mark : Char}
    (ends : ∀ found, .taken found ∈ stretches → found.text.getLast? = some mark) (free : mark ∉ suffix)
    (same : textOf stretches = before ++ suffix) :
    ∃ earlier, stretches = earlier ++ suffix.map .passed ∧ textOf earlier = before := by
  induction suffix using List.reverseRec generalizing stretches with
  | nil => exact ⟨stretches, (List.append_nil _).symm, by rw [same, List.append_nil]⟩
  | append_singleton suffix c inductionHypothesis =>
    rw [List.mem_append, not_or, List.mem_singleton] at free
    rcases List.eq_nil_or_concat' stretches with rfl | ⟨others, last, rfl⟩
    · exact absurd same.symm (by simp)
    · rw [textOf_append, textOf_cons, textOf_nil, List.append_nil, ← List.append_assoc] at same
      cases last with
      | passed d =>
        obtain ⟨front, back⟩ := List.append_inj' same rfl
        obtain ⟨rfl, _⟩ := List.cons.inj back
        obtain ⟨earlier, rfl, split⟩ := inductionHypothesis
          (fun found member => ends found (List.mem_append_left _ member)) free.1 front
        exact ⟨earlier, by rw [List.map_append, List.append_assoc]; rfl, split⟩
      | taken found =>
        have ending := congrArg List.getLast? same
        rw [Stretch.text, List.getLast?_append, ends found (List.mem_append_right _ List.mem_cons_self),
          List.getLast?_append] at ending
        exact absurd (Option.some.inj ending) free.2

/-- Where the search finds nothing all characters are passed; otherwise those in front of what is found are. -/
theorem sweep_searchFrom (filled : ∀ place found, matchAt ignoreCase regex place = some found → found.text ≠ [])
    {ahead : List Char} {before : Option Char} {offset : Nat} :
    (searchFrom ignoreCase regex ahead before offset = none ∧
        Sweep ignoreCase regex ⟨before, ahead, offset⟩ (ahead.map .passed)) ∨
      ∃ found front rest, searchFrom ignoreCase regex ahead before offset = some found ∧
        found.text ≠ [] ∧ FoundAt ignoreCase regex ⟨before, ahead, offset⟩ found front rest ∧
          ∀ stretches, Sweep ignoreCase regex ((⟨before, ahead, offset⟩ : Place).past (front ++ found.text) rest)
            stretches → Sweep ignoreCase regex ⟨before, ahead, offset⟩
              (front.map .passed ++ .taken found :: stretches) := by
  induction ahead generalizing before offset with
  | nil =>
    refine .inl ⟨?_, .ended rfl⟩
    rw [searchFrom, Option.eq_none_iff_forall_ne_some]
    intro found matched
    obtain ⟨rest, there⟩ := foundAt_matchAt matched
    have empty : [] = found.text ++ rest := there.ahead
    exact filled _ _ matched (List.append_eq_nil_iff.mp empty.symm).1
  | cons c ahead inductionHypothesis =>
    rw [searchFrom, Option.orElse_eq_or]
    cases matched : matchAt ignoreCase regex ⟨before, c :: ahead, offset⟩ with
    | some found =>
      obtain ⟨rest, there⟩ := foundAt_matchAt matched
      exact .inr ⟨found, [], rest, rfl, filled _ _ matched, there, fun stretches => .taken there.ahead matched⟩
    | none =>
      rw [Option.none_or]
      rcases @inductionHypothesis (some c) (offset + 1) with ⟨unmatched, sweep⟩ | ⟨found, front, rest, search,
        solid, there, onward⟩
      · exact .inl ⟨unmatched, .passed rfl matched sweep⟩
      · have stepped := (⟨before, c :: ahead, offset⟩ : Place).past_step c ahead
        refine .inr ⟨found, c :: front, rest, search, solid, ?_, fun stretches sweep => ?_⟩
        · refine ⟨congrArg (c :: ·) there.ahead, ?_, ?_, ?_⟩
          · rw [there.start, List.length_cons]
            exact Nat.add_right_comm ..
          · rw [there.stop, List.length_cons]
            exact congrArg (· + _) (Nat.add_right_comm ..)
          · rw [← stepped front (found.text ++ rest)]
            exact there.takes
        · refine .passed rfl matched (onward stretches ?_)
          have same := stepped (front ++ found.text) rest
          rwa [List.cons_append, ← same] at sweep

/-- The pieces of a text are found from every place on, with all matches among them. The induction is on the
number of matches that are asked for. -/
theorem exists_sweep (filled : ∀ place found, matchAt ignoreCase regex place = some found → found.text ≠ [])
    {bound : Nat} (enough : place.ahead.length < bound) :
    ∃ stretches, Sweep ignoreCase regex place stretches ∧
      matchesFrom ignoreCase regex bound place.ahead place.before place.offset =
        stretches.filterMap Stretch.match? ∧
      ∀ replacement, Pattern.splice replacement
        (matchesFrom ignoreCase regex bound place.ahead place.before place.offset) place.offset place.ahead =
          stretches.flatMap (Stretch.replaced replacement) := by
  induction bound generalizing place with
  | zero => cases enough
  | succ bound inductionHypothesis =>
    have plain (text : List Char) : (text.map Stretch.passed).filterMap Stretch.match? = [] ∧
        ∀ replacement, (text.map Stretch.passed).flatMap (Stretch.replaced replacement) = text := by
      refine ⟨List.filterMap_eq_nil_iff.mpr (by simp [Stretch.match?]), fun replacement => ?_⟩
      rw [List.flatMap_map]
      exact List.flatMap_singleton' text
    rw [matchesFrom]
    rcases @sweep_searchFrom ignoreCase regex filled place.ahead place.before place.offset with
      ⟨unmatched, sweep⟩ | ⟨found, front, rest, search, solid, there, onward⟩
    · rw [unmatched]
      exact ⟨_, sweep, (plain _).1.symm, fun replacement => ((plain _).2 replacement).symm⟩
    · obtain ⟨before, behind⟩ := there.cut
      have shorter : (place.past (front ++ found.text) rest).ahead.length < bound := by
        have sizes : place.ahead.length = _ := congrArg List.length there.ahead
        have positive := List.length_pos_iff.mpr solid
        rw [List.length_append, List.length_append] at sizes
        change rest.length < bound
        omega
      obtain ⟨stretches, sweep, matches_, replaced⟩ := inductionHypothesis shorter
      rw [place.before_past solid, there.offset] at matches_ replaced
      refine ⟨_, onward stretches sweep, ?_, fun replacement => ?_⟩
      all_goals
        rw [search]
        dsimp only
        rw [if_neg (by simpa using solid), behind]
      · rw [List.filterMap_append, (plain front).1, List.nil_append]
        exact congrArg (found :: ·) matches_
      · rw [Pattern.splice, before, behind, List.flatMap_append, (plain front).2, List.append_assoc]
        exact congrArg (fun text => front ++ (replacement found ++ text)) (replaced replacement)

/-- Whether an expression asks for the text of a group once more. -/
def asksAgain : Regex → Bool
  | .seq first second => asksAgain first || asksAgain second
  | .either first second => asksAgain first || asksAgain second
  | .loop body _ _ _ => asksAgain body
  | .group _ body => asksAgain body
  | .again _ => true
  | _ => false

/-- Something is matched from every place from which something is matched by another continuation. -/
def Covers (next other : Continuation β) : Prop :=
  ∀ place captures captures', next place captures ≠ none → other place captures' ≠ none

/-- A character is consumed in front of the one as well. -/
theorem covers_consume {next other : Continuation β} {test : Char → Bool} (covers : Covers next other) :
    Covers (consume test next) (consume test other) := by
  intro place captures captures' matched
  unfold consume at matched ⊢
  split at matched
  · next c rest ahead =>
    split at matched
    · next tested =>
      rw [if_pos tested]
      exact covers _ _ _ matched
    · exact absurd rfl matched
  · exact absurd rfl matched

/-- A repetition of a body goes on in front of the one as well. The induction is on the bound of the passes. -/
theorem covers_repeated {body : Continuation β → Continuation β}
    (bodyCovers : ∀ {next other}, Covers next other → Covers (body next) (body other))
    {next other : Continuation β} (covers : Covers next other) {greedy : Bool} {bound least : Nat}
    {most : Option Nat} :
    Covers (repeated body greedy next bound least most) (repeated body greedy other bound least most) := by
  induction bound generalizing least most with
  | zero =>
    intro place captures captures' matched
    rw [repeated] at matched ⊢
    dsimp only at matched ⊢
    split at matched
    · next none =>
      rw [if_pos none]
      exact covers _ _ _ matched
    · exact absurd rfl matched
  | succ bound inductionHypothesis =>
    intro place captures captures' matched
    have inner : Covers (behindPass body greedy next bound least most place)
        (behindPass body greedy other bound least most place) := by
      intro place' captures captures' matched
      unfold behindPass at matched ⊢
      split at matched
      · next stays =>
        rw [if_pos stays]
        exact covers _ _ _ matched
      · next moves =>
        rw [if_neg moves]
        exact inductionHypothesis _ _ _ matched
    rw [repeated_ne_none_iff] at matched ⊢
    rcases matched with ⟨none, done⟩ | ⟨allowed, more⟩
    · exact .inl ⟨none, covers _ _ _ done⟩
    · exact .inr ⟨allowed, bodyCovers inner _ _ _ more⟩

/-- An expression that asks for no group goes on in front of the one as well. -/
theorem covers_run (free : asksAgain regex = false) {next other : Continuation β} (covers : Covers next other) :
    Covers (run ignoreCase regex next) (run ignoreCase regex other) := by
  induction regex generalizing next other with
  | empty => exact covers
  | char wanted => exact covers_consume covers
  | anyChar => exact covers_consume covers
  | oneOf negated items => exact covers_consume covers
  | seq first second firstCovers secondCovers =>
    obtain ⟨one, other⟩ := Bool.or_eq_false_iff.mp free
    exact firstCovers one (secondCovers other covers)
  | either first second firstCovers secondCovers =>
    obtain ⟨one, two⟩ := Bool.or_eq_false_iff.mp free
    intro place captures captures' matched
    have left := firstCovers one covers place captures captures'
    have right := secondCovers two covers place captures captures'
    rw [run] at matched ⊢
    dsimp only at matched ⊢
    rw [Option.orElse_eq_or] at matched ⊢
    grind
  | loop body least most greedy bodyCovers =>
    intro place captures captures' matched
    exact covers_repeated (fun covers => bodyCovers free covers) covers _ _ _ matched
  | group index body bodyCovers =>
    intro place captures captures' matched
    refine bodyCovers free ?_ place captures captures' matched
    exact fun _ _ _ onward => covers _ _ _ onward
  | again index => cases free
  | _ =>
    intro place captures captures' matched
    have here := covers place captures captures'
    rw [run] at matched ⊢
    dsimp only at matched ⊢
    grind

end Conformance.Regex
