import Conformance.Document.Rules
import Conformance.Matching.Channels
import Conformance.Proofs.Failing
import Conformance.Proofs.Matching.Positions
import Conformance.Proofs.Text.Parts
import Mathlib.Data.List.TakeWhile

/-!
# Where suppressions are recorded

A suppression is recorded on the line of its comment, at the comment's column plus the distance from
there. That is where the directive stands exactly if no line feed stands between; otherwise the place
is behind the end of the comment's first line, and nothing is found there.
-/

namespace Conformance.Syntax

open Text

/-! Directives in a text. -/

/-- A directive is one of two; it stands behind its mark, and no word goes on behind it. -/
theorem directiveAt?_spelled {text : List Char} {name : String} (found : directiveAt? text = some name) :
    (name = "ts-ignore" ∨ name = "ts-nocheck") ∧
      ∃ rest, text = '@' :: (name.toList ++ rest) ∧ rest.head?.any isWord = false := by
  obtain ⟨ending, listed, made⟩ := List.exists_of_findSome?_eq_some found
  split at made
  · next rest begins =>
    split at made
    · cases made
    · next free =>
      obtain rfl := Option.some.inj made
      rw [dropStart?_eq_some_iff] at begins
      refine ⟨?_, rest, ?_, Bool.eq_false_iff.mpr free⟩
      · rcases List.mem_pair.mp listed with rfl | rfl
        · exact .inl rfl
        · exact .inr rfl
      · rw [begins, String.toList_append, String.toList_append]
        rfl
  · cases made

/-- What is found in a text stands behind as many of its characters as its distance tells. -/
theorem directivesIn_spelled {start offset : Nat} {text : List Char} {name : String}
    (member : (name, offset) ∈ directivesIn start text) :
    ∃ lead found, text = lead ++ found ∧ offset = start + lead.length ∧ directiveAt? found = some name := by
  induction text generalizing start with
  | nil => cases member
  | cons c text inductionHypothesis =>
    have later (listed : (name, offset) ∈ directivesIn (start + 1) text) :
        ∃ lead found, c :: text = lead ++ found ∧ offset = start + lead.length ∧
          directiveAt? found = some name := by
      obtain ⟨lead, found, rfl, distance, known⟩ := inductionHypothesis listed
      refine ⟨c :: lead, found, rfl, ?_, known⟩
      rw [distance, List.length_cons]
      omega
    rw [directivesIn] at member
    split at member
    · next here =>
      rcases List.mem_cons.mp member with same | listed
      · cases same
        exact ⟨[], c :: text, rfl, rfl, here⟩
      · exact later listed
    · exact later member

/-! Where a suppression points. -/

/-- From its line and column on, the source begins with the directive of a suppression. -/
def SuppressionFact.PointsIn (source : List Char) (fact : SuppressionFact) : Prop :=
  1 ≤ fact.line ∧ 1 ≤ fact.column ∧ ∃ held ∈ (splitLines source)[fact.line - 1]?,
    '@' :: fact.directive.toList <+: held.drop (fact.column - 1)

instance (source : List Char) (fact : SuppressionFact) : Decidable (fact.PointsIn source) :=
  inferInstanceAs (Decidable (_ ∧ _ ∧ _))

/-- A suppression whose line is that of a place and whose column is that of the place plus a distance
points at what stands there in the text exactly if no line feed stands between. -/
theorem pointsIn_iff (fact : SuppressionFact) {before lead : List Char}
    (place : (fact.line, fact.column) =
      ((placeBehind (· == '\n') before).1, (placeBehind (· == '\n') before).2 + lead.length))
    (onOneLine : '\n' ∉ fact.directive.toList) (rest : List Char) :
    fact.PointsIn (before ++ (lead ++ '@' :: (fact.directive.toList ++ rest))) ↔ '\n' ∉ lead := by
  obtain ⟨above, left, behind⟩ := exists_placeBehind (· == '\n') before
  obtain ⟨held, there, further⟩ :=
    splitLines_placeBehind before (lead ++ '@' :: (fact.directive.toList ++ rest))
  rw [behind] at place there further
  have line : fact.line = above + 1 := congrArg Prod.fst place
  have column : fact.column = left + 1 + lead.length := congrArg Prod.snd place
  -- what the line holds from the recorded column on
  have ahead : held.drop (fact.column - 1) = ((lead ++ '@' :: (fact.directive.toList ++ rest)).takeWhile
      (· != '\n')).drop lead.length := by
    rw [← further, List.drop_drop, column, Nat.add_right_comm]
    rfl
  unfold SuppressionFact.PointsIn
  rw [line, there, column]
  simp only [Option.mem_some_iff, exists_eq_left', ← column, ahead]
  constructor
  · rintro ⟨_, _, starts⟩ feed
    -- the line ends before the directive
    have short : ((lead ++ '@' :: (fact.directive.toList ++ rest)).takeWhile (· != '\n')).length ≤
        lead.length := by
      rw [List.takeWhile_append]
      split
      · next whole =>
        rw [← (List.takeWhile_prefix _).eq_of_length whole] at feed
        exact absurd (List.mem_takeWhile_imp feed) (by decide)
      · exact (List.takeWhile_prefix _).length_le
    rw [List.drop_eq_nil_of_le short] at starts
    cases List.prefix_nil.mp starts
  · intro free
    refine ⟨by omega, by omega, ?_⟩
    have within : ∀ c ∈ lead, (c != '\n') = true := fun c member =>
      bne_iff_ne.mpr fun feed => free (feed ▸ member)
    have marked : ∀ c ∈ '@' :: fact.directive.toList, (c != '\n') = true := by
      refine List.forall_mem_cons.mpr ⟨by decide, fun c member => bne_iff_ne.mpr fun feed => ?_⟩
      exact onOneLine (feed ▸ member)
    rw [List.takeWhile_append_of_pos within, List.drop_left, ← List.cons_append,
      List.takeWhile_append_of_pos marked]
    exact List.prefix_append _ _

/-- The place behind some more characters is on the same line as many columns further exactly if there is
no line feed among them. -/
theorem placeBehind_append_iff (before lead : List Char) :
    ((placeBehind (· == '\n') before).1, (placeBehind (· == '\n') before).2 + lead.length) =
      placeBehind (· == '\n') (before ++ lead) ↔ '\n' ∉ lead := by
  constructor
  · intro same feed
    have lines := congrArg Prod.fst same
    rw [placeBehind_fst, placeBehind_fst, List.countP_append] at lines
    have some_ : 0 < lead.countP (· == '\n') := List.countP_pos_iff.mpr ⟨_, feed, rfl⟩
    omega
  · intro free
    refine (placeBehind_append (fun c member => ?_) before).symm
    exact beq_eq_false_iff_ne.mpr fun feed => free (feed ▸ member)

end Conformance.Syntax

namespace Conformance.Matching

open Syntax Text

/-- Two directives in a comment behind a character of two bytes. -/
def twoDirectives : List Char := "const a = \"ü\"; /* @ts-nocheck, @ts-ignore */\n".toList

/-- A directive on the second line of a comment. -/
def directiveBelow : List Char := "/*\n * @ts-ignore\n */\nlet x = 1;\n".toList

end Conformance.Matching
