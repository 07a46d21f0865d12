import Conformance.Proofs.Pattern.Running

/-!
# What the groups of a pattern capture

A match takes a text from a place on, and its groups take the parts of that text that their expressions take.
Where a match is found the text falls into what stands in front of it, the text taken, and the rest; a
replacement keeps the first and the last.
-/

namespace Conformance.Regex

open Text

variable {β : Type} {ignoreCase : Bool} {regex : Regex} {next : Continuation β} {place : Place}
  {captures : List Capture} {result : β}

/-- An expression may take a text from a place on, and its groups capture parts of it, the latest first. Of the
texts that are matched once more nothing is said. -/
inductive Takes (ignoreCase : Bool) : Regex → Place → List Char → List Capture → Prop where
  | empty {place : Place} : Takes ignoreCase .empty place [] []
  | char {wanted c : Char} {place : Place} (same : (c == wanted || (ignoreCase && sameLetter c wanted)) = true) :
      Takes ignoreCase (.char wanted) place [c] []
  | anyChar {c : Char} {place : Place} (within : c ≠ '\n') : Takes ignoreCase .anyChar place [c] []
  | oneOf {negated : Bool} {items : List SetItem} {c : Char} {place : Place}
      (member : (items.any (itemMatches ignoreCase c) != negated) = true) :
      Takes ignoreCase (.oneOf negated items) place [c] []
  | seq {first second : Regex} {place : Place} {before behind rest : List Char} {found more : List Capture}
      (ahead : place.ahead = before ++ rest) (begins : Takes ignoreCase first place before found)
      (goesOn : Takes ignoreCase second (place.past before rest) behind more) :
      Takes ignoreCase (.seq first second) place (before ++ behind) (more ++ found)
  | left {first second : Regex} {place : Place} {text : List Char} {found : List Capture}
      (takes : Takes ignoreCase first place text found) :
      Takes ignoreCase (.either first second) place text found
  | right {first second : Regex} {place : Place} {text : List Char} {found : List Capture}
      (takes : Takes ignoreCase second place text found) :
      Takes ignoreCase (.either first second) place text found
  | done {body : Regex} {most : Option Nat} {greedy : Bool} {place : Place} :
      Takes ignoreCase (.loop body 0 most greedy) place [] []
  | pass {body : Regex} {least : Nat} {most : Option Nat} {greedy : Bool} {place : Place}
      {before behind rest : List Char} {found more : List Capture} (allowed : most ≠ some 0)
      (ahead : place.ahead = before ++ rest) (first : Takes ignoreCase body place before found)
      (others : Takes ignoreCase (.loop body (least - 1) (most.map (· - 1)) greedy) (place.past before rest)
        behind more) :
      Takes ignoreCase (.loop body least most greedy) place (before ++ behind) (more ++ found)
  | group {index : Nat} {body : Regex} {place : Place} {text : List Char} {found : List Capture}
      (takes : Takes ignoreCase body place text found) :
      Takes ignoreCase (.group index body) place text (⟨index, place.offset, text⟩ :: found)
  | again {index : Nat} {place : Place} (text : List Char) : Takes ignoreCase (.again index) place text []
  | textStart {place : Place} (start : place.offset = 0) : Takes ignoreCase .textStart place [] []
  | textEnd {place : Place} (stop : place.ahead.isEmpty ∨ place.ahead = ['\n']) :
      Takes ignoreCase .textEnd place [] []
  | lineStart {place : Place} (start : place.offset = 0 ∨ place.before = some '\n') :
      Takes ignoreCase .lineStart place [] []
  | lineEnd {place : Place} (stop : place.ahead.head?.all (· == '\n') = true) :
      Takes ignoreCase .lineEnd place [] []
  | wordEdge {place : Place} (edge : atWordEdge place = true) : Takes ignoreCase .wordEdge place [] []
  | notWordEdge {place : Place} (within : atWordEdge place = false) :
      Takes ignoreCase .notWordEdge place [] []

/-- From a place some text is taken, and what is to be matched behind it has a result. -/
def Goes (takes : List Char → List Capture → Prop) (next : Continuation β) (place : Place)
    (captures : List Capture) (result : β) : Prop :=
  ∃ taken rest found, place.ahead = taken ++ rest ∧ takes taken found ∧
    next (place.past taken rest) (found ++ captures) = some result

/-- Where nothing is taken, what is to be matched has its result at the place itself. -/
theorem goes_here {takes : List Char → List Capture → Prop} (nothing : takes [] [])
    (matched : next place captures = some result) : Goes takes next place captures result :=
  ⟨[], place.ahead, [], rfl, nothing, matched⟩

/-- Nothing is taken where a condition is met. -/
theorem goes_when {takes : List Char → List Capture → Prop} {condition : Prop} [Decidable condition]
    (nothing : condition → takes [] [])
    (matched : (if condition then next place captures else none) = some result) :
    Goes takes next place captures result := by
  split at matched
  · next holds => exact goes_here (nothing holds) matched
  · cases matched

/-- A character that is consumed passes the test. -/
theorem goes_consume {test : Char → Bool} {takes : List Char → List Capture → Prop}
    (passes : ∀ c, test c = true → takes [c] [])
    (matched : consume test next place captures = some result) : Goes takes next place captures result := by
  unfold consume at matched
  split at matched
  · next c rest ahead =>
    split at matched
    · next tested => exact ⟨[c], rest, [], ahead, passes c tested, matched⟩
    · cases matched
  · cases matched

/-- A text is taken and then another one. -/
theorem Goes.andThen {takes both : List Char → List Capture → Prop} {between : Continuation β}
    (goes : Goes takes between place captures result)
    (onward : ∀ {before rest found}, place.ahead = before ++ rest → takes before found →
      between (place.past before rest) (found ++ captures) = some result →
        Goes (fun behind more => both (before ++ behind) (more ++ found)) next (place.past before rest)
          (found ++ captures) result) : Goes both next place captures result := by
  obtain ⟨before, middle, found, ahead, first, matched⟩ := goes
  obtain ⟨behind, rest, more, further, second, done⟩ := onward ahead first matched
  obtain rfl : middle = behind ++ rest := further
  refine ⟨before ++ behind, rest, more ++ found, ?_, second, ?_⟩
  · rw [ahead, List.append_assoc]
  · rwa [Place.past_past, ← List.append_assoc] at done

/-- A repetition takes the texts of its passes. The induction is on the bound of the passes. -/
theorem goes_repeated {body : Regex} (bodyGoes : ∀ {next : Continuation β} {place captures},
      run ignoreCase body next place captures = some result →
        Goes (Takes ignoreCase body place) next place captures result) {greedy : Bool} {bound least : Nat}
    {most : Option Nat}
    (matched : repeated (run ignoreCase body) greedy next bound least most place captures = some result) :
    Goes (Takes ignoreCase (.loop body least most greedy) place) next place captures result := by
  induction bound generalizing least most place captures with
  | zero =>
    rcases repeated_cases matched with ⟨rfl, done⟩ | ⟨_, none, _⟩
    · exact goes_here .done done
    · cases none
  | succ bound inductionHypothesis =>
    rcases repeated_cases matched with ⟨rfl, done⟩ | ⟨_, ⟨⟩, allowed, more⟩
    · exact goes_here .done done
    · refine (bodyGoes more).andThen fun {before rest found} here first onward => ?_
      unfold behindPass at onward
      split at onward
      · next ended =>
        refine goes_here (.pass allowed here first ?_) onward
        rw [show least - 1 = 0 by omega]
        exact .done
      · obtain ⟨behind, rest, more, ahead, others, matched⟩ := inductionHypothesis onward
        exact ⟨behind, rest, more, ahead, .pass allowed here first others, matched⟩

/-- A text that is consumed is taken, and nothing is captured. -/
theorem goes_consumeText {text : List Char} {takes : List Char → List Capture → Prop}
    (all : ∀ text, takes text [])
    (matched : consumeText ignoreCase text next place captures = some result) :
    Goes takes next place captures result := by
  induction text generalizing place captures takes with
  | nil => exact goes_here (all []) matched
  | cons c text inductionHypothesis =>
    have first : Goes (fun _ found => found = []) _ place captures result :=
      goes_consume (fun _ _ => rfl) matched
    refine first.andThen ?_
    rintro before rest _ _ rfl onward
    exact inductionHypothesis (fun behind => all (before ++ behind)) onward

/-- A match takes a text, and its groups capture what they take of it. -/
theorem goes_run (matched : run ignoreCase regex next place captures = some result) :
    Goes (Takes ignoreCase regex place) next place captures result := by
  induction regex generalizing next place captures with
  | empty => exact goes_here .empty matched
  | char wanted => exact goes_consume (fun _ => .char) matched
  | anyChar => exact goes_consume (fun c within => .anyChar (bne_iff_ne.mp within)) matched
  | oneOf negated items => exact goes_consume (fun _ => .oneOf) matched
  | seq first second firstGoes secondGoes =>
    refine (firstGoes matched).andThen fun {before rest found} here begins onward => ?_
    obtain ⟨behind, rest, more, ahead, goesOn, matched⟩ := secondGoes onward
    exact ⟨behind, rest, more, ahead, .seq here begins goesOn, matched⟩
  | either first second firstGoes secondGoes =>
    rw [run] at matched
    dsimp only at matched
    rw [Option.orElse_eq_or] at matched
    rcases Option.or_eq_some_iff.mp matched with one | ⟨_, other⟩
    · obtain ⟨taken, rest, found, ahead, takes, matched⟩ := firstGoes one
      exact ⟨taken, rest, found, ahead, .left takes, matched⟩
    · obtain ⟨taken, rest, found, ahead, takes, matched⟩ := secondGoes other
      exact ⟨taken, rest, found, ahead, .right takes, matched⟩
  | loop body least most greedy bodyGoes => exact goes_repeated bodyGoes matched
  | group index body bodyGoes =>
    obtain ⟨taken, rest, found, ahead, takes, onward⟩ := bodyGoes matched
    have length : (place.past taken rest).offset - place.offset = taken.length := Nat.add_sub_cancel_left ..
    dsimp only at onward
    rw [length, ahead, List.take_left] at onward
    exact ⟨taken, rest, _, ahead, .group takes, onward⟩
  | again index =>
    rw [run] at matched
    dsimp only at matched
    split at matched
    · exact goes_consumeText .again matched
    · cases matched
  | textStart => exact goes_when .textStart matched
  | textEnd => exact goes_when .textEnd matched
  | lineStart => exact goes_when .lineStart matched
  | lineEnd => exact goes_when .lineEnd matched
  | wordEdge => exact goes_when .wordEdge matched
  | notWordEdge =>
    rw [run] at matched
    dsimp only at matched
    split at matched
    · cases matched
    · next within => exact goes_here (.notWordEdge (Bool.not_eq_true _ ▸ within)) matched

/-! What single expressions take. -/

variable {text before : List Char} {found : List Capture} {first second body : Regex}

/-- One expression and then another one. -/
theorem takes_seq (takes : Takes ignoreCase (.seq first second) place text found) :
    ∃ before behind rest earlier later, text = before ++ behind ∧ found = later ++ earlier ∧
      place.ahead = before ++ rest ∧ Takes ignoreCase first place before earlier ∧
        Takes ignoreCase second (place.past before rest) behind later := by
  cases takes with
  | seq ahead begins goesOn => exact ⟨_, _, _, _, _, rfl, rfl, ahead, begins, goesOn⟩

/-- One of two expressions. -/
theorem takes_either (takes : Takes ignoreCase (.either first second) place text found) :
    Takes ignoreCase first place text found ∨ Takes ignoreCase second place text found := by
  cases takes with
  | left takes => exact .inl takes
  | right takes => exact .inr takes

/-- A group captures what its body takes. -/
theorem takes_group {index : Nat} (takes : Takes ignoreCase (.group index body) place text found) :
    ∃ inner, found = ⟨index, place.offset, text⟩ :: inner ∧ Takes ignoreCase body place text inner := by
  cases takes with
  | group takes => exact ⟨_, rfl, takes⟩

/-- A character takes itself. -/
theorem takes_char {wanted : Char} (takes : Takes false (.char wanted) place text found) :
    text = [wanted] ∧ found = [] := by
  cases takes with
  | char same => exact ⟨by simpa using same, rfl⟩

/-- A set takes one of its characters. -/
theorem takes_oneOf {negated : Bool} {items : List SetItem}
    (takes : Takes ignoreCase (.oneOf negated items) place text found) :
    (∃ c, text = [c] ∧ (items.any (itemMatches ignoreCase c) != negated) = true) ∧ found = [] := by
  cases takes with
  | oneOf member => exact ⟨⟨_, rfl, member⟩, rfl⟩

/-- The start of a line. -/
theorem takes_lineStart (takes : Takes ignoreCase .lineStart place text found) :
    text = [] ∧ found = [] ∧ (place.offset = 0 ∨ place.before = some '\n') := by
  cases takes with
  | lineStart start => exact ⟨rfl, rfl, start⟩

/-- A repetition of single characters takes characters that pass the test, and as many as are needed. -/
theorem takes_loop {test : Char → Prop}
    (single : ∀ {place text found}, Takes ignoreCase body place text found →
      (∃ c, text = [c] ∧ test c) ∧ found = []) {least : Nat} {most : Option Nat} {greedy : Bool}
    (takes : Takes ignoreCase (.loop body least most greedy) place text found) :
    least ≤ text.length ∧ (∀ c ∈ text, test c) ∧ found = [] := by
  generalize loop : Regex.loop body least most greedy = regex at takes
  induction takes generalizing least most with
  | done =>
    cases loop
    exact ⟨Nat.le_refl 0, List.forall_mem_nil _, rfl⟩
  | pass _ _ first others _ othersHypothesis =>
    cases loop
    obtain ⟨⟨c, rfl, tested⟩, rfl⟩ := single first
    obtain ⟨enough, passes, rfl⟩ := othersHypothesis rfl
    refine ⟨?_, List.forall_mem_cons.mpr ⟨tested, passes⟩, rfl⟩
    rw [List.length_append, List.length_singleton]
    omega
  | _ => cases loop

/-- Whether an expression has a group. -/
def hasGroup : Regex → Bool
  | .seq first second => hasGroup first || hasGroup second
  | .either first second => hasGroup first || hasGroup second
  | .loop body _ _ _ => hasGroup body
  | .group _ _ => true
  | _ => false

/-- Without a group nothing is captured. -/
theorem captures_nothing (takes : Takes ignoreCase regex place text found) (plain : hasGroup regex = false) :
    found = [] := by
  induction takes with
  | seq _ _ _ beginsHypothesis goesOnHypothesis =>
    obtain ⟨first, second⟩ := Bool.or_eq_false_iff.mp plain
    rw [beginsHypothesis first, goesOnHypothesis second]
    rfl
  | left _ leftHypothesis => exact leftHypothesis (Bool.or_eq_false_iff.mp plain).1
  | right _ rightHypothesis => exact rightHypothesis (Bool.or_eq_false_iff.mp plain).2
  | pass _ _ _ _ firstHypothesis othersHypothesis =>
    rw [firstHypothesis plain, othersHypothesis plain]
    rfl
  | group _ _ => cases plain
  | _ => rfl

/-! Where a match is found. -/

/-- A match from a place on: what stands in front of it, the text that it takes, and the rest. -/
structure FoundAt (ignoreCase : Bool) (regex : Regex) (place : Place) (found : Match)
    (front rest : List Char) : Prop where
  ahead : place.ahead = front ++ (found.text ++ rest)
  start : found.start = place.offset + front.length
  stop : found.stop = place.offset + front.length + found.text.length
  takes : Takes ignoreCase regex (place.past front (found.text ++ rest)) found.text found.captures

section FoundAt

variable {regex : Regex} {found : Match} {front : List Char}

/-- The ends of a match cut off what stands in front of it and leave what is behind it. -/
theorem FoundAt.cut (there : FoundAt ignoreCase regex place found front rest) :
    place.ahead.take (found.start - place.offset) = front ∧ place.ahead.drop (found.stop - place.offset) = rest := by
  have start : found.start - place.offset = front.length := by
    rw [there.start]
    exact Nat.add_sub_cancel_left ..
  have stop : found.stop - place.offset = (front ++ found.text).length := by
    rw [there.stop, List.length_append, Nat.add_assoc]
    exact Nat.add_sub_cancel_left ..
  rw [start, stop, there.ahead, List.take_left, ← List.append_assoc, List.drop_left]
  exact ⟨rfl, rfl⟩

/-- What is behind a match begins where the match ends. -/
theorem FoundAt.offset (there : FoundAt ignoreCase regex place found front rest) :
    (place.past (front ++ found.text) rest).offset = found.stop := by
  rw [there.stop]
  simp only [Place.past, List.length_append, Nat.add_assoc]

/-- Behind some characters the last of them stands in front. -/
theorem Place.before_past {taken : List Char} (filled : taken ≠ []) (place : Place) (front rest : List Char) :
    (place.past (front ++ taken) rest).before = taken.getLast? := by
  obtain ⟨c, ending⟩ := Option.isSome_iff_exists.mp (List.getLast?_isSome.mpr filled)
  simp [Place.past, List.getLast?_append, ending]

end FoundAt

/-- A match exactly at a place. -/
theorem foundAt_matchAt {found : Match} (matched : matchAt ignoreCase regex place = some found) :
    ∃ rest, FoundAt ignoreCase regex place found [] rest := by
  obtain ⟨taken, rest, captured, ahead, takes, made⟩ := goes_run matched
  have length : (place.past taken rest).offset - place.offset = taken.length := Nat.add_sub_cancel_left ..
  dsimp only at made
  rw [length, ahead, List.take_left, List.append_nil] at made
  obtain rfl := Option.some.inj made
  refine ⟨rest, ahead, rfl, rfl, ?_⟩
  rw [← ahead, Place.past_nil]
  exact takes

/-- The leftmost match from a place on. The induction is on the text ahead. -/
theorem foundAt_searchFrom {ahead : List Char} {before : Option Char} {offset : Nat} {found : Match}
    (matched : searchFrom ignoreCase regex ahead before offset = some found) :
    ∃ front rest, FoundAt ignoreCase regex ⟨before, ahead, offset⟩ found front rest := by
  induction ahead generalizing before offset with
  | nil =>
    obtain ⟨rest, here⟩ := foundAt_matchAt matched
    exact ⟨[], rest, here⟩
  | cons c ahead inductionHypothesis =>
    rw [searchFrom, Option.orElse_eq_or] at matched
    rcases Option.or_eq_some_iff.mp matched with here | ⟨_, later⟩
    · obtain ⟨rest, here⟩ := foundAt_matchAt here
      exact ⟨[], rest, here⟩
    · obtain ⟨front, rest, there⟩ := inductionHypothesis later
      refine ⟨c :: front, rest, congrArg (c :: ·) there.ahead, ?_, ?_, ?_⟩
      · rw [there.start, List.length_cons]
        exact Nat.add_right_comm ..
      · rw [there.stop, List.length_cons]
        exact congrArg (· + _) (Nat.add_right_comm ..)
      · have stepped := (⟨before, c :: ahead, offset⟩ : Place).past_step c ahead front (found.text ++ rest)
        rw [← stepped]
        exact there.takes

/-- Each of all matches is found from some place on. The induction is on their number. -/
theorem foundAt_matchesFrom {bound : Nat} {ahead : List Char} {before : Option Char} {offset : Nat} {found : Match}
    (member : found ∈ matchesFrom ignoreCase regex bound ahead before offset) :
    ∃ place front rest, FoundAt ignoreCase regex place found front rest := by
  induction bound generalizing ahead before offset with
  | zero => cases member
  | succ bound inductionHypothesis =>
    unfold matchesFrom at member
    split at member
    · cases member
    · next first matched =>
      have here := foundAt_searchFrom matched
      dsimp only at member
      split at member
      · rw [List.mem_singleton.mp member]
        exact ⟨_, here⟩
      · rcases List.mem_cons.mp member with rfl | later
        · exact ⟨_, here⟩
        · exact inductionHypothesis later

end Conformance.Regex

namespace Conformance.Pattern

open Regex

variable {pattern : Pattern} {replacement : Match → List Char} {text : List Char}

/-- The start of a text as a place. -/
def startOf (text : List Char) : Place := ⟨none, text, 0⟩

/-- A match that is found in a text, with what stands around it. -/
abbrev FoundIn (pattern : Pattern) (text : List Char) (found : Match) (front rest : List Char) : Prop :=
  FoundAt pattern.ignoreCase pattern.regex (startOf text) found front rest

/-- A search finds the leftmost match. -/
theorem foundIn_search {found : Match} (matched : pattern.search text = some found) :
    ∃ front rest, FoundIn pattern text found front rest :=
  foundAt_searchFrom matched

/-- What stands around a match in a text. -/
theorem FoundIn.cut {found : Match} {front rest : List Char} (there : FoundIn pattern text found front rest) :
    text = front ++ (found.text ++ rest) ∧ text.take found.start = front ∧ text.drop found.stop = rest := by
  obtain ⟨start, stop⟩ := FoundAt.cut there
  exact ⟨there.ahead, start, stop⟩

/-- Only what is found first is replaced. -/
theorem replaceFirst_found {found : Match} {front rest : List Char} (matched : pattern.search text = some found)
    (there : FoundIn pattern text found front rest) :
    pattern.replaceFirst replacement text = front ++ (replacement found ++ rest) := by
  obtain ⟨_, start, stop⟩ := there.cut
  rw [replaceFirst, matched]
  simp only [Option.toList_some, splice, Nat.sub_zero, start, stop, List.append_assoc]

/-- What a text becomes from a place on if all matches in it are replaced. -/
inductive Replaced (pattern : Pattern) (replacement : Match → List Char) : Place → List Char → Prop where
  | kept {place : Place} : Replaced pattern replacement place place.ahead
  | changed {place : Place} {found : Match} {front rest result : List Char}
      (there : FoundAt pattern.ignoreCase pattern.regex place found front rest)
      (later : Replaced pattern replacement (place.past (front ++ found.text) rest) result) :
      Replaced pattern replacement place (front ++ (replacement found ++ result))

/-- A text from a place on with its matches replaced, up to a given number of them. -/
def spliced (pattern : Pattern) (replacement : Match → List Char) (bound : Nat) (place : Place) : List Char :=
  splice replacement (pattern.regex.matchesFrom pattern.ignoreCase bound place.ahead place.before place.offset)
    place.offset place.ahead

/-- Without a match nothing is replaced; otherwise the leftmost match and those behind it are. -/
theorem spliced_cases {bound : Nat}
    (later : ∀ place, Replaced pattern replacement place (spliced pattern replacement bound place))
    (place : Place) :
    (pattern.regex.searchFrom pattern.ignoreCase place.ahead place.before place.offset = none ∧
        spliced pattern replacement (bound + 1) place = place.ahead) ∨
      ∃ found front rest result,
        pattern.regex.searchFrom pattern.ignoreCase place.ahead place.before place.offset = some found ∧
          FoundAt pattern.ignoreCase pattern.regex place found front rest ∧
            Replaced pattern replacement (place.past (front ++ found.text) rest) result ∧
              spliced pattern replacement (bound + 1) place = front ++ (replacement found ++ result) := by
  rw [spliced, matchesFrom]
  cases matched : pattern.regex.searchFrom pattern.ignoreCase place.ahead place.before place.offset with
  | none => exact .inl ⟨rfl, rfl⟩
  | some found =>
    obtain ⟨front, rest, there⟩ := foundAt_searchFrom matched
    obtain ⟨before, behind⟩ := there.cut
    have onward := later (place.past (front ++ found.text) rest)
    refine .inr ⟨found, front, rest, ?_⟩
    dsimp only
    split
    · refine ⟨rest, rfl, there, .kept, ?_⟩
      simp only [splice, before, behind, List.append_assoc]
    · next filled =>
      have solid : found.text ≠ [] := List.isEmpty_eq_false_iff.mp (Bool.not_eq_true _ ▸ filled)
      rw [spliced, place.before_past solid, there.offset] at onward
      refine ⟨_, rfl, there, onward, ?_⟩
      simp only [splice, before, behind, List.append_assoc]
      rfl

/-- Matches are replaced, up to any number of them. -/
theorem replaced_spliced (bound : Nat) (place : Place) :
    Replaced pattern replacement place (spliced pattern replacement bound place) := by
  induction bound generalizing place with
  | zero => exact .kept
  | succ bound inductionHypothesis =>
    rcases spliced_cases inductionHypothesis place with ⟨_, same⟩ | ⟨_, _, _, _, _, there, later, made⟩
    · rw [same]
      exact .kept
    · rw [made]
      exact .changed there later

/-- Where a pattern does not occur nothing is replaced; otherwise the leftmost match and those behind it are. -/
theorem replaceAll_cases (pattern : Pattern) (replacement : Match → List Char) (text : List Char) :
    (pattern.occursIn text = false ∧ pattern.replaceAll replacement text = text) ∨
      ∃ found front rest result, pattern.occursIn text = true ∧ FoundIn pattern text found front rest ∧
        Replaced pattern replacement ((startOf text).past (front ++ found.text) rest) result ∧
          pattern.replaceAll replacement text = front ++ (replacement found ++ result) := by
  rcases spliced_cases (replaced_spliced text.length) (startOf text) with
    ⟨unmatched, same⟩ | ⟨found, front, rest, result, matched, there, later, made⟩
  · refine .inl ⟨?_, same⟩
    rw [occursIn, search]
    exact congrArg Option.isSome unmatched
  · refine .inr ⟨found, front, rest, result, ?_, there, later, made⟩
    rw [occursIn, search]
    exact congrArg Option.isSome matched

end Conformance.Pattern
