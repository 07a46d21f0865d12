import Conformance.Proofs.Pattern.Sweeping

/-!
# What is found if it is there

A match takes what its expression may take. For the other direction the matcher must not miss what
an expression may take: it tries all choices one after the other, and it goes on with a repetition
as long as its passes consume something. So for expressions whose passes all do, and that ask for
no group once more, a match is found exactly where there is one.
-/

namespace Conformance.Regex

variable {β : Type} {ignoreCase : Bool} {regex : Regex} {next : Continuation β} {place : Place}
  {taken rest : List Char} {found : List Capture}

/-- Whether an expression takes at least one character. -/
def fills : Regex → Bool
  | .char _ => true
  | .anyChar => true
  | .oneOf _ _ => true
  | .seq first second => fills first || fills second
  | .either first second => fills first && fills second
  | .loop body least _ _ => fills body && 0 < least
  | .group _ body => fills body
  | _ => false

/-- Whether every pass of a repetition in an expression takes at least one character, and no text of
a group is asked for once more. -/
def isSteady : Regex → Bool
  | .seq first second => isSteady first && isSteady second
  | .either first second => isSteady first && isSteady second
  | .loop body _ _ _ => isSteady body && fills body
  | .group _ body => isSteady body
  | .again _ => false
  | _ => true

/-- What takes at least one character does not take the empty text. -/
theorem Takes.ne_nil (takes : Takes ignoreCase regex place taken found) (filled : fills regex = true) :
    taken ≠ [] := by
  induction takes with
  | char _ => exact List.cons_ne_nil _ _
  | anyChar _ => exact List.cons_ne_nil _ _
  | oneOf _ => exact List.cons_ne_nil _ _
  | seq _ _ _ beginsHypothesis goesOnHypothesis =>
    intro empty
    obtain ⟨first, second⟩ := List.append_eq_nil_iff.mp empty
    rcases Bool.or_eq_true_iff.mp filled with filled | filled
    · exact beginsHypothesis filled first
    · exact goesOnHypothesis filled second
  | left _ leftHypothesis => exact leftHypothesis (Bool.and_eq_true_iff.mp filled).1
  | right _ rightHypothesis => exact rightHypothesis (Bool.and_eq_true_iff.mp filled).2
  | done => exact absurd (of_decide_eq_true (Bool.and_eq_true_iff.mp filled).2) (Nat.lt_irrefl 0)
  | pass _ _ _ _ firstHypothesis _ =>
    intro empty
    exact firstHypothesis (Bool.and_eq_true_iff.mp filled).1 (List.append_eq_nil_iff.mp empty).1
  | group _ groupHypothesis => exact groupHypothesis filled
  | _ => cases filled

/-- A repetition whose passes consume something reaches the place behind them, with any bound that
is not exhausted. The induction is on the passes. -/
theorem repeated_ne_none {body : Regex} (filled : fills body = true)
    (bodyFinds : ∀ (next : Continuation β) {place taken rest found},
      Takes ignoreCase body place taken found → place.ahead = taken ++ rest →
        (∀ captures, next (place.past taken rest) captures ≠ none) →
          ∀ captures, run ignoreCase body next place captures ≠ none)
    {least bound : Nat} {most : Option Nat} {greedy : Bool}
    (takes : Takes ignoreCase (.loop body least most greedy) place taken found)
    (ahead : place.ahead = taken ++ rest) (bounded : taken.length < bound)
    (onward : ∀ captures, next (place.past taken rest) captures ≠ none) (captures : List Capture) :
    repeated (run ignoreCase body) greedy next bound least most place captures ≠ none := by
  generalize loop : Regex.loop body least most greedy = regex at takes
  induction takes generalizing least bound most captures with
  | done =>
    cases loop
    obtain ⟨bound, rfl⟩ : ∃ fewer, bound = fewer + 1 := ⟨bound - 1, by omega⟩
    obtain rfl : _ = rest := ahead
    exact repeated_ne_none_iff.mpr (.inl ⟨rfl, onward captures⟩)
  | @pass _ least most _ place before behind between _ _ allowed split first _ _ othersHypothesis =>
    cases loop
    obtain ⟨bound, rfl⟩ : ∃ fewer, bound = fewer + 1 := ⟨bound - 1, by omega⟩
    have moved : 0 < before.length := List.length_pos_iff.mpr (first.ne_nil filled)
    rw [List.length_append] at bounded
    obtain rfl : between = behind ++ rest := by
      rw [split, List.append_assoc] at ahead
      exact List.append_cancel_left ahead
    refine repeated_ne_none_iff.mpr (.inr ⟨allowed, bodyFinds _ first split (fun captures => ?_) captures⟩)
    have further : (place.past before (behind ++ rest)).offset ≠ place.offset := by
      change place.offset + before.length ≠ place.offset
      omega
    rw [behindPass, if_neg fun both => further both.1]
    refine othersHypothesis rfl (by omega) ?_ captures rfl
    intro captures
    rw [Place.past_past]
    exact onward captures
  | _ => cases loop

/-- A character that passes a test is taken, and what is behind it is matched. -/
theorem consume_ne_none {test : Char → Bool} {c : Char} (passes : test c = true)
    (ahead : place.ahead = [c] ++ rest) (onward : ∀ captures, next (place.past [c] rest) captures ≠ none)
    (captures : List Capture) : consume test next place captures ≠ none := by
  rw [consume, ahead]
  simp only [List.singleton_append, passes, if_true]
  exact onward captures

/-- Where a condition is met, nothing is taken and what is behind is matched. -/
theorem when_ne_none {condition : Prop} [Decidable condition] (holds : condition)
    (ahead : place.ahead = [] ++ rest) (onward : ∀ captures, next (place.past [] rest) captures ≠ none)
    (captures : List Capture) : (if condition then next place captures else none) ≠ none := by
  obtain rfl : _ = rest := ahead
  rw [if_pos holds]
  exact onward captures

/-- Whatever a steady expression may take in front of something that is matched is found. -/
theorem run_ne_none (steady : isSteady regex = true) (takes : Takes ignoreCase regex place taken found)
    (ahead : place.ahead = taken ++ rest) (onward : ∀ captures, next (place.past taken rest) captures ≠ none)
    (captures : List Capture) : run ignoreCase regex next place captures ≠ none := by
  induction regex generalizing next place taken rest found captures with
  | empty =>
    cases takes
    obtain rfl : _ = rest := ahead
    exact onward captures
  | char wanted =>
    cases takes with
    | char same => exact consume_ne_none same ahead onward captures
  | anyChar =>
    cases takes with
    | anyChar within => exact consume_ne_none (by simpa using within) ahead onward captures
  | oneOf negated items =>
    cases takes with
    | oneOf member => exact consume_ne_none member ahead onward captures
  | seq first second firstFinds secondFinds =>
    obtain ⟨one, two⟩ := Bool.and_eq_true_iff.mp steady
    obtain ⟨before, behind, between, _, _, rfl, _, split, begins, goesOn⟩ := takes_seq takes
    obtain rfl : between = behind ++ rest := by
      rw [split, List.append_assoc] at ahead
      exact List.append_cancel_left ahead
    refine firstFinds one begins split (fun captures => ?_) captures
    refine secondFinds two goesOn rfl (fun captures => ?_) captures
    rw [Place.past_past]
    exact onward captures
  | either first second firstFinds secondFinds =>
    obtain ⟨one, two⟩ := Bool.and_eq_true_iff.mp steady
    rw [run]
    dsimp only
    rw [Option.orElse_eq_or]
    rcases takes_either takes with takes | takes
    · simp [firstFinds one takes ahead onward captures]
    · simp [secondFinds two takes ahead onward captures]
  | loop body least most greedy bodyFinds =>
    obtain ⟨plain, filled⟩ := Bool.and_eq_true_iff.mp steady
    rw [run]
    refine repeated_ne_none filled (fun _ => bodyFinds plain) takes ahead ?_ onward captures
    rw [ahead, List.length_append]
    omega
  | group index body bodyFinds =>
    obtain ⟨_, _, takes⟩ := takes_group takes
    rw [run]
    refine bodyFinds steady takes ahead ?_ captures
    exact fun captures => onward _
  | again index => cases steady
  | textStart =>
    cases takes with
    | textStart start => exact when_ne_none start ahead onward captures
  | textEnd =>
    cases takes with
    | textEnd stop => exact when_ne_none stop ahead onward captures
  | lineStart =>
    cases takes with
    | lineStart start => exact when_ne_none start ahead onward captures
  | lineEnd =>
    cases takes with
    | lineEnd stop => exact when_ne_none stop ahead onward captures
  | wordEdge =>
    cases takes with
    | wordEdge edge => exact when_ne_none edge ahead onward captures
  | notWordEdge =>
    cases takes with
    | notWordEdge within =>
      obtain rfl : _ = rest := ahead
      rw [run]
      simp only [within, Bool.false_eq_true, if_false]
      exact onward captures

/-- A steady expression matches at a place exactly if it may take something from there. -/
theorem matchAt_ne_none_iff (steady : isSteady regex = true) :
    matchAt ignoreCase regex place ≠ none ↔
      ∃ taken rest found, place.ahead = taken ++ rest ∧ Takes ignoreCase regex place taken found := by
  constructor
  · intro matched
    obtain ⟨found, there⟩ := Option.ne_none_iff_exists'.mp matched
    obtain ⟨rest, there⟩ := foundAt_matchAt there
    have takes := there.takes
    have split : place.ahead = found.text ++ rest := there.ahead
    rw [← split] at takes
    exact ⟨found.text, rest, found.captures, split, takes⟩
  · rintro ⟨taken, rest, found, ahead, takes⟩
    exact run_ne_none steady takes ahead (fun captures => Option.some_ne_none _) []

end Conformance.Regex

namespace Conformance.Pattern

open Regex

/-- A steady pattern occurs in a text exactly if it may take something from some place on. -/
theorem occursIn_iff {pattern : Pattern} (steady : isSteady pattern.regex = true) (text : List Char) :
    pattern.occursIn text = true ↔
      ∃ before taken rest found, text = before ++ (taken ++ rest) ∧
        Takes pattern.ignoreCase pattern.regex ((startOf text).past before (taken ++ rest)) taken found := by
  rw [occursIn, Option.isSome_iff_ne_none]
  constructor
  · intro matched
    obtain ⟨found, there⟩ := Option.ne_none_iff_exists'.mp matched
    obtain ⟨front, rest, there⟩ := foundIn_search there
    exact ⟨front, found.text, rest, found.captures, there.ahead, there.takes⟩
  · rintro ⟨before, taken, rest, found, split, takes⟩ missing
    have here := matchAt_of_searchFrom_none missing before (taken ++ rest) split
    exact (matchAt_ne_none_iff steady).mpr ⟨taken, rest, found, rfl, takes⟩ here

end Conformance.Pattern
