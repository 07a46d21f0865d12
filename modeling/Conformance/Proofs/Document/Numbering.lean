import Conformance.Audit.Ordering
import Conformance.Document.Rules
import Conformance.Proofs.Number.Digits
import Mathlib.Data.List.Nodup
import Mathlib.Data.List.Range

/-!
# Numbered rules

The rules of a document are numbered from one on, whatever makes them. An identifier tells its
standard and its number, so no two rules of a document share one, and neither do rules of
documents of different standards.
-/

namespace Conformance

/-- Every standard is found by its code. -/
@[simp] theorem Standard.ofCode?_code (standard : Standard) :
    Standard.ofCode? standard.code = some standard := by
  cases standard <;> decide

/-- Every standard is found by its name. -/
@[simp] theorem Standard.ofName?_name (standard : Standard) :
    Standard.ofName? standard.name = some standard := by
  cases standard <;> decide

/-- The name of a standard is its own. -/
theorem Standard.name_injective : Function.Injective Standard.name := by
  intro standard other same
  have found := standard.ofName?_name
  rw [same, other.ofName?_name] at found
  exact (Option.some.inj found).symm

/-- A name that a standard is found by is its own. -/
theorem Standard.name_of_ofName? {text : String} {standard : Standard}
    (found : Standard.ofName? text = some standard) : standard.name = text :=
  eq_of_beq (List.find?_some found :)

/-- Codes have no hyphen. -/
theorem Standard.hyphen_not_mem_code (standard : Standard) : '-' ∉ standard.code.toList := by
  cases standard <;> decide

namespace Document

variable {standard other : Standard}

/-- An identifier is a code, a hyphen and the filled up digits of a number. -/
theorem toList_ruleId (standard : Standard) (number : Nat) :
    (ruleId standard number).toList = standard.code.toList ++ '-' :: Number.padded 3 number := by
  have natural : ¬ (number : Int) < 0 := by omega
  simp [ruleId, serial, natural]

/-- The code of an identifier reaches up to its first hyphen. -/
theorem takeWhile_ruleId (standard : Standard) (number : Nat) :
    (ruleId standard number).toList.takeWhile (· != '-') = standard.code.toList := by
  have plain : ∀ c ∈ standard.code.toList, (c != '-') = true := by
    intro c member
    rw [bne_iff_ne]
    rintro rfl
    exact standard.hyphen_not_mem_code member
  rw [toList_ruleId, List.takeWhile_append_of_pos plain]
  simp

/-- The standard of a rule is read off its identifier. -/
theorem standardOfRuleId_ruleId (standard : Standard) (number : Nat) :
    Audit.standardOfRuleId (ruleId standard number) = standard.name := by
  simp [Audit.standardOfRuleId, takeWhile_ruleId]

/-- An identifier tells its standard and its number. -/
theorem ruleId_injective {number count : Nat}
    (same : ruleId standard number = ruleId other count) : standard = other ∧ number = count := by
  have codes : standard.code = other.code := by
    apply String.toList_injective
    rw [← takeWhile_ruleId standard number, same, takeWhile_ruleId]
  have standards : standard = other := by
    have found := standard.ofCode?_code
    rw [codes, other.ofCode?_code] at found
    exact (Option.some.inj found).symm
  subst standards
  have letters := congrArg String.toList same
  rw [toList_ruleId, toList_ruleId] at letters
  have behind := List.append_cancel_left letters
  exact ⟨rfl, Number.padded_injective 3 number count (List.cons.inj behind).2⟩

/-- A rule has the identifier of its number. -/
@[simp] theorem id_ruleOf (standard : Standard) (number : Nat) (origin : Origin) :
    (ruleOf standard number origin).id = ruleId standard number := by
  cases origin <;> rfl

/-- A rule belongs to the standard it is made for. -/
@[simp] theorem standard_ruleOf (standard : Standard) (number : Nat) (origin : Origin) :
    (ruleOf standard number origin).standard = standard := by
  cases origin <;> rfl

/-- Rules that are numbered from some number on have the identifiers of the numbers from there
on. -/
theorem ids_numbered (standard : Standard) (first : Nat) (made : List Origin) :
    (numbered standard first made).map (·.id) =
      (List.range' first made.length).map fun number : Nat => ruleId standard number := by
  induction made generalizing first with
  | nil => rfl
  | cons origin made inductionHypothesis =>
    rw [numbered, List.map_cons, inductionHypothesis, id_ruleOf, List.length_cons,
      List.range'_succ, List.map_cons]

/-- There is one rule for each thing that makes one. -/
theorem length_numbered (standard : Standard) (first : Nat) (made : List Origin) :
    (numbered standard first made).length = made.length := by
  have ids := congrArg List.length (ids_numbered standard first made)
  simpa using ids

/-- Numbered rules belong to the standard they are made for. -/
theorem standard_numbered (standard : Standard) (first : Nat) (made : List Origin) :
    ∀ rule ∈ numbered standard first made, rule.standard = standard := by
  induction made generalizing first with
  | nil => simp [numbered]
  | cons origin made inductionHypothesis =>
    intro rule member
    rcases List.mem_cons.mp member with rfl | later
    · exact standard_ruleOf standard first origin
    · exact inductionHypothesis (first + 1) rule later

/-- The rules of a document are numbered through from one on. -/
theorem ids_rules (content : List Char) (standard : Standard) :
    (rules content standard).map (·.id) =
      (List.range' 1 (rules content standard).length).map fun number : Nat => ruleId standard number := by
  rw [rules, ids_numbered, length_numbered]

/-- No two rules of a document share an identifier. -/
theorem nodup_ids_rules (content : List Char) (standard : Standard) :
    ((rules content standard).map (·.id)).Nodup := by
  rw [ids_rules]
  refine List.Nodup.map ?_ (List.nodup_range' 1)
  intro number count same
  exact (ruleId_injective same).2

/-- A rule of a document has the document's standard and an identifier with its code. -/
theorem spec_of_mem_rules (content : List Char) (standard : Standard) :
    ∀ rule ∈ rules content standard,
      rule.standard = standard ∧ ∃ number : Nat, rule.id = ruleId standard number := by
  intro rule member
  refine ⟨standard_numbered standard 1 _ rule member, ?_⟩
  have listed : rule.id ∈ (rules content standard).map (·.id) := List.mem_map_of_mem member
  rw [ids_rules] at listed
  obtain ⟨number, _, same⟩ := List.mem_map.mp listed
  exact ⟨number, same.symm⟩

/-- The identifier of a rule tells the standard of its document. -/
theorem standardOfRuleId_of_mem_ids {content : List Char} {standard : Standard} {ruleId : String}
    (member : ruleId ∈ (rules content standard).map (·.id)) :
    Audit.standardOfRuleId ruleId = standard.name := by
  obtain ⟨rule, inside, rfl⟩ := List.mem_map.mp member
  obtain ⟨_, number, same⟩ := spec_of_mem_rules content standard rule inside
  rw [same, standardOfRuleId_ruleId]

/-- A document that has rules has the rule with the first identifier. -/
theorem first_mem_ids_rules (content : List Char) (standard : Standard)
    (filled : rules content standard ≠ []) :
    ruleId standard 1 ∈ (rules content standard).map (·.id) := by
  rw [ids_rules]
  refine List.mem_map.mpr ⟨1, ?_, rfl⟩
  have positive := List.length_pos_of_ne_nil filled
  rw [List.mem_range'_1]
  omega

end Document

end Conformance
