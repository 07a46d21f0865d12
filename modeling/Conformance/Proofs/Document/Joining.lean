import Conformance.Proofs.Document.Numbering
import Conformance.Proofs.Text.Parts
import Mathlib.Data.List.Forall2

/-!
# Documents that are put together

A document goes on with another one that begins with a heading. Nothing of the first reaches into
the second: not a block that is left open, not an example that waits for its opposite, not a
description. Only the numbering goes on, so the rules of the second document follow the example
rules of the first, with the numbers behind theirs.
-/

namespace Conformance.Document

open Text

/-- A text that is empty or ends with a line feed. -/
def EndsLine (text : List Char) : Prop := text = [] ∨ ∃ front, text = front ++ ['\n']

/-- A text that begins with a heading of the second level. -/
def BeginsSection (text : List Char) : Prop :=
  ∃ c rest, text = '#' :: '#' :: ' ' :: c :: rest ∧ c ≠ '\n'

/-- A rule that is made by a pair of examples. The other rules of a document are marked as those of
the catalogue. -/
def isExampleRule (rule : Rule) : Bool := !rule.tags.contains "catalogue"

/-- The rules of a document that are made by its examples. -/
def exampleRules (content : List Char) (standard : Standard) : List Rule :=
  (rules content standard).filter isExampleRule

/-- The rules of a document that its standard brings along. -/
def authoredRules (content : List Char) (standard : Standard) : List Rule :=
  (rules content standard).filter fun rule => !isExampleRule rule

/-- A rule and the one with the same fields whose number is higher by a count. -/
def Renumbered (standard : Standard) (count : Nat) (rule other : Rule) : Prop :=
  ∃ number : Nat, rule.id = ruleId standard number ∧
    other = { rule with id := ruleId standard ((number + count : Nat) : Int) }

/-- The body of a section goes up to the next heading, whatever stands behind it. -/
theorem bodyOf_append {line : List Char} (begins : (heading? line).isSome)
    (before after : List (List Char)) : bodyOf (before ++ line :: after) = bodyOf (before ++ [[]]) := by
  obtain ⟨heading, found⟩ := Option.isSome_iff_exists.mp begins
  induction before with
  | nil =>
    rw [List.nil_append, bodyOf, found]
    rfl
  | cons first before inductionHypothesis =>
    rw [List.cons_append, List.cons_append, bodyOf, bodyOf, inductionHypothesis]

/-- Lines that go on with a heading have the sections of both parts. -/
theorem sectionsOf_append {line : List Char} (begins : (heading? line).isSome)
    (before after : List (List Char)) :
    sectionsOf (before ++ line :: after) = sectionsOf (before ++ [[]]) ++ sectionsOf (line :: after) := by
  induction before with
  | nil => rfl
  | cons first before inductionHypothesis =>
    rw [List.cons_append, List.cons_append, sectionsOf, sectionsOf, bodyOf_append begins,
      inductionHypothesis]
    split <;> rfl

/-- The first line of a text that begins with a heading is one. -/
theorem BeginsSection.lines {text : List Char} (begins : BeginsSection text) :
    ∃ line rest, splitLines text = line :: rest ∧ (heading? line).isSome := by
  obtain ⟨c, rest, rfl, filled⟩ := begins
  have filledPieces : splitAt '\n' rest ≠ [] := splitAt_ne_nil rest
  obtain ⟨piece, pieces, cut⟩ := List.exists_cons_of_ne_nil filledPieces
  refine ⟨'#' :: '#' :: ' ' :: c :: piece, pieces, ?_, rfl⟩
  simp [splitLines, splitAt, filled, cut]

/-- A document that goes on with a heading has the sections of both parts. -/
theorem sections_append {before after : List Char} (ends : EndsLine before)
    (begins : BeginsSection after) : sections (before ++ after) = sections before ++ sections after := by
  rcases ends with rfl | ⟨front, rfl⟩
  · rfl
  · obtain ⟨line, rest, cut, heading⟩ := begins.lines
    unfold sections
    rw [List.append_assoc, List.singleton_append]
    unfold splitLines at cut ⊢
    rw [splitAt_append, splitAt_append, cut, sectionsOf_append heading]
    rfl

/-- Rules that are numbered through are numbered on behind the first of them. -/
theorem numbered_append (standard : Standard) (first : Nat) (before after : List Origin) :
    numbered standard first (before ++ after) =
      numbered standard first before ++ numbered standard (first + before.length) after := by
  induction before generalizing first with
  | nil => rfl
  | cons origin before inductionHypothesis =>
    rw [List.cons_append, numbered, numbered, inductionHypothesis, List.length_cons,
      Nat.add_right_comm, Nat.add_assoc]
    rfl

/-- What makes a rule makes the same one with another number. -/
theorem renumbered_ruleOf (standard : Standard) (number count : Nat) (origin : Origin) :
    Renumbered standard count (ruleOf standard number origin)
      (ruleOf standard (number + count) origin) := by
  refine ⟨number, id_ruleOf standard number origin, ?_⟩
  cases origin <;> rfl

/-- Rules that are numbered from a higher number on differ in their numbers only. -/
theorem renumbered_numbered (standard : Standard) (first count : Nat) (made : List Origin) :
    List.Forall₂ (Renumbered standard count) (numbered standard first made)
      (numbered standard (first + count) made) := by
  induction made generalizing first with
  | nil => exact .nil
  | cons origin made inductionHypothesis =>
    refine .cons (renumbered_ruleOf standard first count origin) ?_
    rw [Nat.add_right_comm]
    exact inductionHypothesis (first + 1)

/-- A numbered rule is made by one of the things that make rules. -/
theorem mem_numbered {standard : Standard} {first : Nat} {made : List Origin} {rule : Rule}
    (member : rule ∈ numbered standard first made) :
    ∃ number, ∃ origin ∈ made, rule = ruleOf standard number origin := by
  induction made generalizing first with
  | nil => cases member
  | cons origin made inductionHypothesis =>
    rcases List.mem_cons.mp member with rfl | later
    · exact ⟨first, origin, List.mem_cons_self, rfl⟩
    · obtain ⟨number, other, listed, same⟩ := inductionHypothesis later
      exact ⟨number, other, List.mem_cons_of_mem _ listed, same⟩

/-- Examples make example rules. -/
theorem isExampleRule_of_mem_examples {content : List Char} {standard : Standard} {first : Nat}
    {rule : Rule} (member : rule ∈ numbered standard first (exampleOrigins content)) :
    isExampleRule rule = true := by
  obtain ⟨number, origin, listed, rfl⟩ := mem_numbered member
  obtain ⟨part, _, paired⟩ := List.mem_flatMap.mp listed
  obtain ⟨pair, _, rfl⟩ := List.mem_map.mp paired
  rfl

/-- Entries of the catalogue make no example rules. -/
theorem not_isExampleRule_of_mem_entries {standard : Standard} {first : Nat} {rule : Rule}
    {entries : List CatalogueEntry} (member : rule ∈ numbered standard first (entries.map .entry)) :
    isExampleRule rule = false := by
  obtain ⟨number, origin, listed, rfl⟩ := mem_numbered member
  obtain ⟨entry, _, rfl⟩ := List.mem_map.mp listed
  rfl

/-- The example rules are those that are numbered first. -/
theorem exampleRules_eq (content : List Char) (standard : Standard) :
    exampleRules content standard = numbered standard 1 (exampleOrigins content) := by
  rw [exampleRules, rules, origins, numbered_append, List.filter_append, List.filter_eq_self.mpr,
    List.filter_eq_nil_iff.mpr, List.append_nil]
  · intro rule member
    rw [not_isExampleRule_of_mem_entries member]
    exact Bool.false_ne_true
  · intro rule member
    exact isExampleRule_of_mem_examples member

/-- The authored rules are numbered behind the example rules. -/
theorem authoredRules_eq (content : List Char) (standard : Standard) :
    authoredRules content standard =
      numbered standard (1 + (exampleOrigins content).length) ((catalogue standard).map .entry) := by
  rw [authoredRules, rules, origins, numbered_append, List.filter_append, List.filter_eq_nil_iff.mpr,
    List.filter_eq_self.mpr, List.nil_append]
  · intro rule member
    rw [not_isExampleRule_of_mem_entries member]
    rfl
  · intro rule member
    rw [isExampleRule_of_mem_examples member]
    exact Bool.false_ne_true

/-- The rules of a document are its example rules and then the authored ones. -/
theorem rules_eq_append (content : List Char) (standard : Standard) :
    rules content standard = exampleRules content standard ++ authoredRules content standard := by
  rw [exampleRules_eq, authoredRules_eq, rules, origins, numbered_append]

/-- A document that goes on with a heading has the example rules of its first part as they are. Then
come those of the second part and the authored ones, and of these nothing differs from the rules of
the second part alone but the numbers, which are higher by the count of the example rules before. -/
theorem rules_joined (before after : List Char) (standard : Standard) (ends : EndsLine before)
    (begins : BeginsSection after) :
    ∃ shifted authored,
      rules (before ++ after) standard = exampleRules before standard ++ shifted ++ authored ∧
      exampleRules (before ++ after) standard = exampleRules before standard ++ shifted ∧
      authoredRules (before ++ after) standard = authored ∧
      List.Forall₂ (Renumbered standard (exampleRules before standard).length)
        (exampleRules after standard) shifted ∧
      List.Forall₂ (Renumbered standard (exampleRules before standard).length)
        (authoredRules after standard) authored := by
  have made : exampleOrigins (before ++ after) = exampleOrigins before ++ exampleOrigins after := by
    unfold exampleOrigins
    rw [sections_append ends begins, List.flatMap_append]
  have examples : exampleRules (before ++ after) standard = exampleRules before standard ++
      numbered standard (1 + (exampleOrigins before).length) (exampleOrigins after) := by
    rw [exampleRules_eq, exampleRules_eq, made, numbered_append]
  refine ⟨_, _, ?_, examples, rfl, ?_, ?_⟩
  · rw [rules_eq_append, examples]
  · rw [exampleRules_eq, exampleRules_eq, length_numbered]
    exact renumbered_numbered standard 1 _ _
  · rw [authoredRules_eq, authoredRules_eq, exampleRules_eq, length_numbered, made,
      List.length_append, Nat.add_comm (exampleOrigins before).length, ← Nat.add_assoc]
    exact renumbered_numbered standard _ _ _

/-- A document with a pair of examples, and a block that is left open behind it. -/
def unfinishedText : List Char := "## A\n❌\n```\na\n```\n✅\n```\nb\n```\n❌\n```\nc\n".toList

/-- A document with a pair of examples. -/
def furtherText : List Char := "## B\n❌\n```\nx\n```\n✅\n```\ny\n```\n".toList

/-- The block that is left open takes nothing from the document behind it, whose one example rule and
two authored ones are renumbered by one. -/
theorem rules_joined_unfinished :
    ∃ shifted authored, EndsLine unfinishedText ∧ BeginsSection furtherText ∧
      rules (unfinishedText ++ furtherText) .react =
        exampleRules unfinishedText .react ++ shifted ++ authored ∧
      (exampleRules unfinishedText .react).length = 1 ∧ shifted.length = 1 ∧ authored.length = 2 ∧
      List.Forall₂ (Renumbered .react 1) (exampleRules furtherText .react) shifted ∧
      List.Forall₂ (Renumbered .react 1) (authoredRules furtherText .react) authored := by
  have ends : EndsLine unfinishedText := .inr ⟨unfinishedText.dropLast, by decide⟩
  have begins : BeginsSection furtherText := ⟨'B', furtherText.drop 4, by decide, by decide⟩
  have count : (exampleRules unfinishedText .react).length = 1 := by decide +kernel
  obtain ⟨shifted, authored, whole, _, _, examples, others⟩ :=
    rules_joined unfinishedText furtherText .react ends begins
  rw [count] at examples others
  refine ⟨shifted, authored, ends, begins, whole, count, ?_, ?_, examples, others⟩
  · rw [← examples.length_eq]
    decide +kernel
  · rw [← others.length_eq]
    decide +kernel

end Conformance.Document
