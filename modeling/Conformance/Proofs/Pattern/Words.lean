import Conformance.Pattern.Reader
import Mathlib.Tactic.Common

/-!
# Reading a pattern with a word in it

More fuel than is needed changes nothing about what is read. A word in a pattern stands for its characters, one
behind the other, so a pattern with any word in it is read like the parts around the word.
-/

namespace Conformance.Pattern

open Regex Text

variable {options : Options}

/-- More fuel changes nothing. -/
theorem read_succ (fuel : Nat) : (∀ next text result, alternatives options fuel next text = some result →
      alternatives options (fuel + 1) next text = some result) ∧
    (∀ next text result, sequence options fuel next text = some result →
      sequence options (fuel + 1) next text = some result) ∧
    (∀ next text result, atom options fuel next text = some result →
      atom options (fuel + 1) next text = some result) := by
  induction fuel with
  | zero => refine ⟨?_, ?_, ?_⟩ <;> intro next text result read <;> simp [alternatives, sequence, atom] at read
  | succ fuel inductionHypothesis =>
    obtain ⟨ofAlternatives, ofSequence, ofAtom⟩ := inductionHypothesis
    refine ⟨?_, ?_, ?_⟩
    · intro next text result read
      rw [alternatives] at read ⊢
      obtain ⟨⟨first, after, rest⟩, one, others⟩ := Option.bind_eq_some_iff.mp read
      refine Option.bind_eq_some_iff.mpr ⟨_, ofSequence _ _ _ one, ?_⟩
      dsimp only at others ⊢
      split at others
      · obtain ⟨second, two, made⟩ := Option.bind_eq_some_iff.mp others
        exact Option.bind_eq_some_iff.mpr ⟨_, ofAlternatives _ _ _ two, made⟩
      · exact others
    · intro next text result read
      rw [sequence.eq_def] at read ⊢
      dsimp only at read ⊢
      split at read
      · exact read
      · exact read
      · exact read
      · obtain ⟨one, first, behind⟩ := Option.bind_eq_some_iff.mp read
        refine Option.bind_eq_some_iff.mpr ⟨_, ofAtom _ _ _ first, ?_⟩
        obtain ⟨others, further, made⟩ := Option.bind_eq_some_iff.mp behind
        exact Option.bind_eq_some_iff.mpr ⟨_, ofSequence _ _ _ further, made⟩
    · intro next text result read
      rw [atom.eq_def] at read ⊢
      dsimp only at read ⊢
      split at read
      · obtain ⟨body, inner, closed⟩ := Option.bind_eq_some_iff.mp read
        exact Option.bind_eq_some_iff.mpr ⟨_, ofAlternatives _ _ _ inner, closed⟩
      · obtain ⟨body, inner, closed⟩ := Option.bind_eq_some_iff.mp read
        exact Option.bind_eq_some_iff.mpr ⟨_, ofAlternatives _ _ _ inner, closed⟩
      all_goals exact read

variable {fuel next after : Nat} {text rest : List Char}

/-- What is read with some fuel is read with more. -/
theorem read_mono {more : Nat} (enough : fuel ≤ more) {result : Regex × Nat × List Char} :
    (alternatives options fuel next text = some result → alternatives options more next text = some result) ∧
      (sequence options fuel next text = some result → sequence options more next text = some result) ∧
        (atom options fuel next text = some result → atom options more next text = some result) := by
  induction enough with
  | refl => exact ⟨id, id, id⟩
  | @step more _ inductionHypothesis =>
    obtain ⟨ofAlternatives, ofSequence, ofAtom⟩ := inductionHypothesis
    obtain ⟨nextAlternatives, nextSequence, nextAtom⟩ := @read_succ options more
    exact ⟨fun read => nextAlternatives _ _ _ (ofAlternatives read),
      fun read => nextSequence _ _ _ (ofSequence read), fun read => nextAtom _ _ _ (ofAtom read)⟩

/-- An atom with its quantifier, and what stands behind them. -/
theorem sequence_read {one part others : Regex} {c : Char} {text rest behind stop : List Char} {least last : Nat}
    (first : atom options least next (c :: text) = some (one, after, rest))
    (times : quantified one rest = (part, behind)) (enough : least ≤ fuel) (goesOn : c ≠ '|' ∧ c ≠ ')')
    (further : sequence options fuel after behind = some (others, last, stop)) :
    sequence options (fuel + 1) next (c :: text) = some (andThen part others, last, stop) := by
  have read := (read_mono enough).2.2 first
  rw [sequence.eq_def]
  dsimp only
  split
  · next empty => cases empty
  · next same => exact absurd (List.cons.inj same).1 goesOn.1
  · next same => exact absurd (List.cons.inj same).1 goesOn.2
  · rw [read]
    dsimp only [Option.bind_eq_bind, Option.bind_some]
    rw [times]
    dsimp only
    rw [further]
    rfl

/-- Alternatives of which there is only one. -/
theorem alternatives_single {one : Regex} (read : sequence options fuel next text = some (one, after, rest))
    (ends : rest.head? ≠ some '|') : alternatives options (fuel + 1) next text = some (one, after, rest) := by
  rw [alternatives, read]
  dsimp only [Option.bind_eq_bind, Option.bind_some]
  split
  · exact absurd rfl ends
  · rfl

/-- A group that is remembered. -/
theorem atom_group {body : Regex} (remembered : text.head? ≠ some '?')
    (read : alternatives options fuel (next + 1) text = some (body, after, ')' :: rest)) :
    atom options (fuel + 1) next ('(' :: text) = some (.group next body, after, rest) := by
  rw [atom.eq_def]
  cases text with
  | nil => simp [read]
  | cons c text =>
    have other : c ≠ '?' := fun same => remembered (congrArg some same)
    simp [other, read]

/-- The characters that mean something in a pattern are no word characters. -/
theorem isWord_meaning {c : Char} (within : isWord c = true) :
    c ∉ ['(', '[', '.', '^', '$', '\\', '*', '+', '?', '|', ')', '\x7b'] := by
  have none : ['(', '[', '.', '^', '$', '\\', '*', '+', '?', '|', ')', '\x7b'].any isWord = false := by decide
  intro member
  exact absurd (List.any_eq_true.mpr ⟨c, member, within⟩) (ne_true_of_eq_false none)

/-- A word character is an atom. -/
theorem atom_word {c : Char} (within : isWord c = true) :
    atom options (fuel + 1) next (c :: rest) = some (.char c, next, rest) := by
  have other := isWord_meaning within
  simp only [List.mem_cons, not_or, List.not_mem_nil, not_false_eq_true, and_true] at other
  rw [atom.eq_def]
  simp [other]

/-- Nothing is quantified by what does not begin with a quantifier. -/
theorem quantified_word {one : Regex} {c : Char} (plain : c ∉ ['?', '*', '+', '\x7b']) :
    quantified one (c :: text) = (one, c :: text) := by
  simp only [List.mem_cons, not_or, List.not_mem_nil, not_false_eq_true, and_true] at plain
  rw [quantified, quantifier?.eq_def]
  simp [plain]

/-- A plus sign asks for one pass or more, as many as there can be. -/
theorem quantified_plus {one : Regex} (greedy : text.head? ≠ some '?') :
    quantified one ('+' :: text) = (.loop one 1 none true, text) := by
  rw [quantified, quantifier?]
  split
  · next none => cases none
  · next least most rest same =>
    obtain ⟨_, _, rfl⟩ := Prod.mk.inj (Option.some.inj same) |>.imp id Prod.mk.inj
    exact absurd rfl greedy
  · next least most rest _ same =>
    obtain ⟨rfl, rfl, rfl⟩ := Prod.mk.inj (Option.some.inj same) |>.imp id Prod.mk.inj
    rfl

/-- The expression for a text, one character behind the other, in front of another expression. -/
def spelled (text : List Char) (behind : Regex) : Regex := text.foldr (fun c => .seq (.char c)) behind

/-- A word stands for its characters. The induction is on the word. -/
theorem sequence_word {word : List Char} (within : ∀ c ∈ word, isWord c = true) (some_ : 0 < fuel) {c : Char}
    (plain : c ∉ ['?', '*', '+', '\x7b']) {others : Regex} (filled : others ≠ .empty)
    (read : sequence options fuel next (c :: text) = some (others, after, rest)) :
    sequence options (fuel + word.length) next (word ++ c :: text) =
      some (spelled word others, after, rest) := by
  induction word with
  | nil => exact read
  | cons d word inductionHypothesis =>
    obtain ⟨first, later⟩ := List.forall_mem_cons.mp within
    have other := isWord_meaning first
    have quantifiers : ['?', '*', '+', '\x7b'] ⊆
        ['(', '[', '.', '^', '$', '\\', '*', '+', '?', '|', ')', '\x7b'] := by decide
    obtain ⟨e, ahead, begins⟩ : ∃ e ahead, word ++ c :: text = e :: ahead := by
      cases word with
      | nil => exact ⟨c, text, rfl⟩
      | cons e word => exact ⟨e, word ++ c :: text, rfl⟩
    have unquantified : quantified (.char d) (word ++ c :: text) = (.char d, word ++ c :: text) := by
      rw [begins]
      refine quantified_word ?_
      cases word with
      | nil =>
        obtain ⟨rfl, _⟩ := List.cons.inj begins
        exact plain
      | cons f word =>
        obtain ⟨rfl, _⟩ := List.cons.inj begins
        exact fun member => isWord_meaning (later f List.mem_cons_self) (quantifiers member)
    have joined : andThen (.char d) (spelled word others) = spelled (d :: word) others := by
      cases word with
      | nil => cases others <;> first | rfl | exact absurd rfl filled
      | cons f word => rfl
    have stepped := inductionHypothesis later
    rw [List.length_cons, ← Nat.add_assoc, ← joined]
    exact sequence_read (atom_word first) unquantified (Nat.le_add_right_of_le some_)
      ⟨by rintro rfl; exact other (by decide), by rintro rfl; exact other (by decide)⟩ stepped

end Conformance.Pattern
