import Conformance.Matching.Channels
import Mathlib.Data.List.Basic
import Mathlib.Tactic.Common

/-!
# What a violation carries

Whichever channel reports a rule, the violation carries the rule's identifier, name and severity
and the path that is asked for.
-/

namespace Conformance.Matching

open Syntax

variable {rule : Rule} {file : SourceFile} {filePath : String}

/-- A violation of a rule in a file. -/
structure IsReport (rule : Rule) (filePath : String) (violation : Violation) : Prop where
  ruleId : violation.ruleId = rule.id
  ruleName : violation.ruleName = rule.name
  severity : violation.severity = rule.severity
  path : violation.filePath = filePath

/-- A report is one of its rule in its file. -/
theorem isReport_report (line column : Int) (message : String) (fixSuggestion : Option String)
    (codeSnippet : List Char) :
    IsReport rule filePath (report rule filePath line column message fixSuggestion codeSnippet) :=
  ⟨rfl, rfl, rfl, rfl⟩

/-- Lines added around a violation leave it a report of its rule. -/
theorem IsReport.withSnippet {violation : Violation} (reported : IsReport rule filePath violation)
    (lines : List (List Char)) : IsReport rule filePath (withSnippet lines violation) := by
  unfold Matching.withSnippet
  split
  · exact ⟨reported.ruleId, reported.ruleName, reported.severity, reported.path⟩
  · exact reported

/-- Only reports of one rule in one file. -/
def AllReports (rule : Rule) (filePath : String) (violations : List Violation) : Prop :=
  ∀ violation ∈ violations, IsReport rule filePath violation

/-- No report is left to look at. -/
theorem allReports_nil : AllReports rule filePath [] := by
  intro violation member
  cases member

/-- One report. -/
theorem allReports_singleton {violation : Violation} (reported : IsReport rule filePath violation) :
    AllReports rule filePath [violation] := by
  intro other member
  rwa [List.mem_singleton.mp member]

/-- Reports behind reports. -/
theorem AllReports.append {first second : List Violation} (before : AllReports rule filePath first)
    (behind : AllReports rule filePath second) : AllReports rule filePath (first ++ second) := by
  intro violation member
  rcases List.mem_append.mp member with early | late
  · exact before violation early
  · exact behind violation late

/-- One report for each thing that has been found. -/
theorem allReports_map {ν : Type} (found : List ν) (say : ν → Violation)
    (reported : ∀ thing, IsReport rule filePath (say thing)) :
    AllReports rule filePath (found.map say) := by
  intro violation member
  obtain ⟨thing, _, rfl⟩ := List.mem_map.mp member
  exact reported thing

/-- Reports that are only made in some case. -/
theorem AllReports.ite {condition : Prop} [Decidable condition] {violations : List Violation}
    (reported : AllReports rule filePath violations) :
    AllReports rule filePath (if condition then violations else []) := by
  split
  · exact reported
  · exact allReports_nil

/-- Some of the reports. -/
theorem AllReports.filter {violations : List Violation}
    (reported : AllReports rule filePath violations) (test : Violation → Bool) :
    AllReports rule filePath (violations.filter test) := by
  intro violation member
  exact reported violation (List.mem_filter.mp member).1

/-- The checks of the language standard report their rule. -/
theorem allReports_checkTypescript (rule : Rule) (file : SourceFile) (filePath : String) :
    AllReports rule filePath (checkTypescript rule file filePath) := by
  unfold checkTypescript
  refine .append (.append (.append (.ite ?exports) (.ite ?parameters)) (.ite ?suppressions))
    (.ite ?messages)
  case exports => exact allReports_map _ _ fun _ => isReport_report ..
  case parameters => exact allReports_map _ _ fun _ => isReport_report ..
  case suppressions => exact allReports_map _ _ fun _ => isReport_report ..
  case messages => exact allReports_map _ _ fun _ => isReport_report ..

/-- Hooks without the client directive are reported under their rule. -/
theorem allReports_checkHookDirective (rule : Rule) (file : SourceFile) (filePath : String) :
    AllReports rule filePath (checkHookDirective rule file filePath) := by
  unfold checkHookDirective
  split
  · split
    · exact allReports_nil
    · exact allReports_singleton (isReport_report ..)
  · exact allReports_nil

/-- The checks of the component standard report their rule. -/
theorem allReports_checkReact (rule : Rule) (file : SourceFile) (filePath : String) :
    AllReports rule filePath (checkReact rule file filePath) := by
  unfold checkReact
  refine .append (.append (.ite ?classes) (.ite ?hooks)) (.ite ?state)
  case classes => exact allReports_map _ _ fun _ => isReport_report ..
  case hooks => exact allReports_checkHookDirective rule file filePath
  case state =>
    unfold checkServerData
    exact .ite (allReports_map _ _ fun _ => isReport_report ..)

/-- The checks of the framework standard report their rule. -/
theorem allReports_checkNextjs (rule : Rule) (file : SourceFile) (filePath : String) :
    AllReports rule filePath (checkNextjs rule file filePath) := by
  unfold checkNextjs checkDirective checkServerPage
  exact .append (.ite (.ite (allReports_singleton (isReport_report ..))))
    (.ite (.ite (allReports_singleton (isReport_report ..))))

/-- The checks of a rule's standard report the rule. -/
theorem allReports_checkStandard (rule : Rule) (file : SourceFile) (filePath : String) :
    AllReports rule filePath (checkStandard rule file filePath) := by
  unfold checkStandard
  split
  · exact allReports_checkTypescript rule file filePath
  · exact allReports_checkReact rule file filePath
  · exact allReports_checkNextjs rule file filePath
  · exact allReports_nil

/-- The node channel reports its rule. -/
theorem allReports_matchNodes (rule : Rule) (source : List Char) (tree : Node) (filePath : String) :
    AllReports rule filePath (matchNodes rule source tree filePath) := by
  unfold matchNodes
  split
  · exact allReports_nil
  · exact allReports_map _ _ fun _ => isReport_report ..

/-- The line channel reports its rule on every line from any number on. -/
theorem allReports_matchLinesFrom (rule : Rule) (pattern : Pattern) (filePath : String)
    (lines : List (List Char)) (number : Nat) (ahead : List (List Char)) :
    AllReports rule filePath (matchLinesFrom rule pattern filePath lines number ahead) := by
  induction ahead generalizing number with
  | nil => exact allReports_nil
  | cons line rest inductionHypothesis =>
    unfold matchLinesFrom matchLine
    refine .append ?_ (inductionHypothesis (number + 1))
    cases pattern.search line with
    | none => exact allReports_nil
    | some found => exact allReports_singleton (isReport_report ..)

/-- The line channel reports its rule. -/
theorem allReports_matchLines (rule : Rule) (lines : List (List Char)) (filePath : String) :
    AllReports rule filePath (matchLines rule lines filePath) := by
  unfold matchLines
  split
  · exact allReports_nil
  · next pattern _ => exact allReports_matchLinesFrom rule pattern filePath lines 1 lines

/-- The checks and the node test report their rule. -/
theorem allReports_matchSyntax (rule : Rule) (file : SourceFile) (filePath : String) :
    AllReports rule filePath (matchSyntax rule file filePath) :=
  (allReports_checkStandard rule file filePath).append
    ((allReports_matchNodes rule file.source file.tree filePath).filter _)

/-- Every violation that a rule is found to have is a report of the rule under the given path. -/
theorem allReports_matchRule (rule : Rule) (file : SourceFile) (text : List Char)
    (filePath : String) : AllReports rule filePath (matchRule rule file text filePath) := by
  refine (allReports_matchLines rule (Text.lines text) filePath).append ?_
  intro violation member
  obtain ⟨reported, listed, rfl⟩ := List.mem_map.mp member
  exact ((allReports_matchSyntax rule file filePath).filter _ reported listed).withSnippet _

/-!
## What a violation says

A violation says the message of its rule, or what one of the checks says that the rule's name asks for. Some
checks put a piece of the project into their message: the pattern of a parameter, the name of a class or of a
hook, or a message of the compiler.
-/

variable {violations : List Violation}

/-- A message about a rule: words before a piece of the project, the piece, and words behind it. Where nothing
is taken from the project the piece is empty. -/
inductive IsSaid (rule : Rule) (file : SourceFile) : (before piece behind : String) → Prop
  | own : IsSaid rule file rule.message "" ""
  | anonymousExport (standard : rule.standard = .typescript)
      (asked : Text.mentions "default-export" rule.name = true) :
      IsSaid rule file ("Anonymous default export - " ++ rule.message) "" ""
  | parameter {fact : AnyFact} (standard : rule.standard = .typescript)
      (asked : Text.mentions "any-type" rule.name = true) (found : fact ∈ file.facts.anyTypes)
      (context : fact.context = .parameter) :
      IsSaid rule file "Parameter \"" fact.name ("\" is typed as any - " ++ rule.message)
  | suppression {fact : SuppressionFact} (standard : rule.standard = .typescript)
      (asked : Text.mentions "ts-ignore" rule.name = true) (found : fact ∈ file.facts.suppressions) :
      IsSaid rule file ("@" ++ fact.directive ++ " suppresses type checking - " ++ rule.message) "" ""
  | typeError {diagnostic : Diagnostic} (standard : rule.standard = .typescript)
      (asked : Text.mentions "type-error" rule.name = true) (found : diagnostic ∈ file.typeErrors) :
      IsSaid rule file "" (diagnostic.code ++ ": " ++ diagnostic.message) ""
  | classComponent {fact : ComponentFact} (standard : rule.standard = .react)
      (asked : Text.mentions "class-component" rule.name = true)
      (found : fact ∈ file.facts.classComponents) :
      IsSaid rule file "Class component \"" fact.name ("\" - " ++ rule.message)
  | hook {fact : HookFact} (standard : rule.standard = .react)
      (asked : (Text.mentions "use-client" rule.name || Text.mentions "hook" rule.name) = true)
      (found : fact ∈ file.facts.hooks) :
      IsSaid rule file "Component uses hooks (" fact.name ") but missing \"use client\" directive"
  | serverData (standard : rule.standard = .react)
      (asked : (Text.mentions "usestate" rule.name || Text.mentions "server-data" rule.name) = true) :
      IsSaid rule file "Consider using Convex useQuery for server data instead of useState" "" ""
  | directive (standard : rule.standard = .nextjs)
      (asked : (Text.mentions "use-client" rule.name || Text.mentions "directive" rule.name) = true) :
      IsSaid rule file "Missing \"use client\" directive - this component uses hooks" "" ""

/-- What a message says. -/
def Tells (rule : Rule) (file : SourceFile) (message : String) : Prop :=
  ∃ before piece behind, IsSaid rule file before piece behind ∧ message = before ++ piece ++ behind

/-- All messages of some reports are about their rule. -/
def AllTell (rule : Rule) (file : SourceFile) (violations : List Violation) : Prop :=
  ∀ violation ∈ violations, Tells rule file violation.message

/-- A message without a piece of the project. -/
theorem IsSaid.tells {message : String} (said : IsSaid rule file message "" "") : Tells rule file message :=
  ⟨message, "", "", said, by simp⟩

/-- A report says what is asked of it, and otherwise the message of its rule. -/
theorem tells_report (line column : Int) {message : String} (fixSuggestion : Option String)
    (codeSnippet : List Char) (said : message = "" ∨ Tells rule file message) :
    Tells rule file (report rule filePath line column message fixSuggestion codeSnippet).message := by
  dsimp only [report]
  split
  · exact IsSaid.own.tells
  · next filled => exact said.resolve_left filled

/-- Reports that are made under a condition may use it. -/
theorem allTell_ite {condition : Prop} [Decidable condition]
    (tells : condition → AllTell rule file violations) :
    AllTell rule file (if condition then violations else []) := by
  split
  · next holds => exact tells holds
  · exact List.forall_mem_nil _

/-- What the checks of the language standard say. -/
theorem allTell_checkTypescript (standard : rule.standard = .typescript) :
    AllTell rule file (checkTypescript rule file filePath) := by
  refine List.forall_mem_append.mpr ⟨List.forall_mem_append.mpr ⟨List.forall_mem_append.mpr
    ⟨allTell_ite fun asked => ?exports, allTell_ite fun asked => ?parameters⟩,
    allTell_ite fun asked => ?suppressions⟩, allTell_ite fun asked => ?messages⟩
  case exports =>
    refine List.forall_mem_map.mpr fun fact _ => tells_report _ _ _ _ (.inr ?_)
    split
    · exact (IsSaid.anonymousExport standard asked).tells
    · exact IsSaid.own.tells
  case parameters =>
    refine List.forall_mem_map.mpr fun fact listed => tells_report _ _ _ _ (.inr ?_)
    obtain ⟨found, context⟩ := List.mem_filter.mp listed
    exact ⟨_, _, _, .parameter standard asked found (by simpa using context), by
      simp only [String.append_assoc]⟩
  case suppressions =>
    exact List.forall_mem_map.mpr fun fact found =>
      tells_report _ _ _ _ (.inr (IsSaid.suppression standard asked found).tells)
  case messages =>
    refine List.forall_mem_map.mpr fun diagnostic found => tells_report _ _ _ _ (.inr ?_)
    exact ⟨_, _, _, .typeError standard asked found, by simp⟩

/-- What the checks of the component standard say. -/
theorem allTell_checkReact (standard : rule.standard = .react) :
    AllTell rule file (checkReact rule file filePath) := by
  refine List.forall_mem_append.mpr ⟨List.forall_mem_append.mpr
    ⟨allTell_ite fun asked => ?classes, allTell_ite fun asked => ?hooks⟩, allTell_ite fun asked => ?state⟩
  case classes =>
    refine List.forall_mem_map.mpr fun fact found => tells_report _ _ _ _ (.inr ?_)
    exact ⟨_, _, _, .classComponent standard asked found, by simp only [String.append_assoc]⟩
  case hooks =>
    unfold checkHookDirective
    split
    · next first others found =>
      split
      · exact List.forall_mem_nil _
      · refine List.forall_mem_singleton.mpr (tells_report _ _ _ _ (.inr ?_))
        exact ⟨_, _, _, .hook standard asked (found ▸ List.mem_cons_self), rfl⟩
    · exact List.forall_mem_nil _
  case state =>
    exact allTell_ite fun _ => List.forall_mem_map.mpr fun hook _ =>
      tells_report _ _ _ _ (.inr (IsSaid.serverData standard asked).tells)

/-- What the checks of the framework standard say. -/
theorem allTell_checkNextjs (standard : rule.standard = .nextjs) :
    AllTell rule file (checkNextjs rule file filePath) := by
  refine List.forall_mem_append.mpr ⟨allTell_ite fun asked => allTell_ite fun _ => ?missing,
    allTell_ite fun _ => allTell_ite fun _ => ?page⟩
  case missing =>
    exact List.forall_mem_singleton.mpr (tells_report _ _ _ _ (.inr (IsSaid.directive standard asked).tells))
  case page => exact List.forall_mem_singleton.mpr (tells_report _ _ _ _ (.inl rfl))

/-- What the checks of a rule's standard say. -/
theorem allTell_checkStandard (rule : Rule) (file : SourceFile) (filePath : String) :
    AllTell rule file (checkStandard rule file filePath) := by
  unfold checkStandard
  split
  · next standard => exact allTell_checkTypescript standard
  · next standard => exact allTell_checkReact standard
  · next standard => exact allTell_checkNextjs standard
  · exact List.forall_mem_nil _

/-- The node channel says the message of the rule. -/
theorem allTell_matchNodes (rule : Rule) (file : SourceFile) (source : List Char) (tree : Node)
    (filePath : String) : AllTell rule file (matchNodes rule source tree filePath) := by
  unfold matchNodes
  split
  · exact List.forall_mem_nil _
  · exact List.forall_mem_map.mpr fun node _ => tells_report _ _ _ _ (.inl rfl)

/-- The line channel says the message of the rule. -/
theorem allTell_matchLinesFrom (rule : Rule) (file : SourceFile) (pattern : Pattern) (filePath : String)
    (lines : List (List Char)) (number : Nat) (ahead : List (List Char)) :
    AllTell rule file (matchLinesFrom rule pattern filePath lines number ahead) := by
  induction ahead generalizing number with
  | nil => exact List.forall_mem_nil _
  | cons line rest inductionHypothesis =>
    unfold matchLinesFrom matchLine
    refine List.forall_mem_append.mpr ⟨?_, inductionHypothesis (number + 1)⟩
    cases pattern.search line with
    | none => exact List.forall_mem_nil _
    | some found => exact List.forall_mem_singleton.mpr (tells_report _ _ _ _ (.inl rfl))

/-- **What a violation says.** Every violation of a rule in a file says the rule's message, or what one of the
checks says that the rule asks for. -/
theorem allTell_matchRule (rule : Rule) (file : SourceFile) (text : List Char) (filePath : String) :
    AllTell rule file (matchRule rule file text filePath) := by
  refine List.forall_mem_append.mpr ⟨?onLines, fun violation member => ?others⟩
  case onLines =>
    unfold matchLines
    split
    · exact List.forall_mem_nil _
    · next pattern _ => exact allTell_matchLinesFrom rule file pattern filePath _ 1 _
  case others =>
    obtain ⟨reported, listed, rfl⟩ := List.mem_map.mp member
    have told : Tells rule file reported.message := by
      rcases List.mem_append.mp (List.mem_filter.mp listed).1 with checked | tested
      · exact allTell_checkStandard rule file filePath reported checked
      · exact allTell_matchNodes rule file _ _ filePath reported (List.mem_filter.mp tested).1
    unfold withSnippet
    split <;> exact told

end Conformance.Matching
