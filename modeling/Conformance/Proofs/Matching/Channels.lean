import Conformance.Proofs.Matching.Positions
import Conformance.Proofs.Matching.Reporting
import Conformance.Proofs.Pattern.Sweeping

/-!
# What the channels report together

The line channel reports the lines on which the pattern is found, each once, in their order. The
checks of a rule's standard hit the places that the facts of a source show, as the words in the
rule's name ask for it. A rule is reported on the lines that any channel hits: a later channel keeps
all its reports but those on lines that an earlier one has hit.
-/

namespace Conformance.Matching

open Syntax Text

variable {rule : Rule} {pattern : Pattern} {file : SourceFile} {filePath : String}

/-- The pattern of a rule is found on a line of a text, and its leftmost match there begins at a
column. Both are counted from one. -/
def LineHits (rule : Rule) (text : List Char) (line column : Nat) : Prop :=
  ∃ pattern held front rest, rule.pattern = some pattern ∧ 0 < line ∧
    (lines text)[line - 1]? = some held ∧ pattern.FoundFirst held front rest ∧
    column = front.length + 1

/-- A place at which a check finds fault that the name of a rule asks for. -/
inductive CheckHits (rule : Rule) (file : SourceFile) (filePath : String) : (line column : Int) → Prop
  | defaultExport {fact : ExportFact} (standard : rule.standard = .typescript)
      (asked : mentions "default-export" rule.name = true) (found : fact ∈ file.facts.exports)
      (kind : fact.kind = .default) : CheckHits rule file filePath fact.line fact.column
  | parameter {fact : AnyFact} (standard : rule.standard = .typescript)
      (asked : mentions "any-type" rule.name = true) (found : fact ∈ file.facts.anyTypes)
      (context : fact.context = .parameter) : CheckHits rule file filePath fact.line fact.column
  | suppression {fact : SuppressionFact} (standard : rule.standard = .typescript)
      (asked : mentions "ts-ignore" rule.name = true) (found : fact ∈ file.facts.suppressions) :
      CheckHits rule file filePath fact.line fact.column
  | typeError {diagnostic : Diagnostic} (standard : rule.standard = .typescript)
      (asked : mentions "type-error" rule.name = true) (found : diagnostic ∈ file.typeErrors) :
      CheckHits rule file filePath diagnostic.line diagnostic.column
  | classComponent {fact : ComponentFact} (standard : rule.standard = .react)
      (asked : mentions "class-component" rule.name = true) (found : fact ∈ file.facts.components)
      (byClass : fact.byClass = true) : CheckHits rule file filePath fact.line 1
  | hook (standard : rule.standard = .react)
      (asked : mentions "use-client" rule.name = true ∨ mentions "hook" rule.name = true)
      (hooks : file.facts.hooks ≠ []) (client : file.facts.usesClient = false) :
      CheckHits rule file filePath 1 1
  | serverData {fact : HookFact} (standard : rule.standard = .react)
      (asked : mentions "usestate" rule.name = true ∨ mentions "server-data" rule.name = true)
      (client : file.facts.usesClient = true)
      (fetched : file.facts.importsModule "convex/react" = false) (found : fact ∈ file.facts.hooks)
      (name : fact.name = "useState") : CheckHits rule file filePath fact.line fact.column
  | directive (standard : rule.standard = .nextjs)
      (asked : mentions "use-client" rule.name = true ∨ mentions "directive" rule.name = true)
      (hooks : file.facts.hooks ≠ []) (client : file.facts.usesClient = false)
      (server : file.facts.usesServer = false) : CheckHits rule file filePath 1 1
  | page (standard : rule.standard = .nextjs) (asked : mentions "server-component" rule.name = true)
      (name : (Path.ofString filePath).name = "page.tsx") (client : file.facts.usesClient = true) :
      CheckHits rule file filePath 1 1

/-- The reports on lines that are not covered yet, with the lines around them. -/
def beside (text : List Char) (covered : List Int) (violations : List Violation) : List Violation :=
  (violations.filter fun violation => violation.line ∉ covered).map (withSnippet (lines text))

/-! The line channel. -/

/-- The report of a pattern on a line says where the leftmost match begins. -/
theorem matchLine_eq_some_iff (given : rule.pattern = some pattern) {text : List Char} {number : Nat}
    {held : List Char} (there : (lines text)[number]? = some held) {violation : Violation} :
    matchLine rule pattern filePath (lines text) (number + 1) held = some violation ↔
      ∃ column, LineHits rule text (number + 1) column ∧
        violation = report rule filePath (number + 1 : Nat) column "" none
          (snippet (lines text) (number + 1 : Nat)) := by
  have places (column : Nat) : LineHits rule text (number + 1) column ↔
      ∃ found, pattern.search held = some found ∧ found.start + 1 = column := by
    constructor
    · rintro ⟨other, line, front, rest, same, _, listed, first, rfl⟩
      obtain rfl := Option.some.inj (given.symm.trans same)
      obtain rfl := Option.some.inj (there.symm.trans listed)
      obtain ⟨found, matched, start⟩ := Pattern.search_start_iff.mpr ⟨front, rest, first, rfl⟩
      exact ⟨found, matched, congrArg (· + 1) start⟩
    · rintro ⟨found, matched, rfl⟩
      obtain ⟨front, rest, first, start⟩ := Pattern.search_start_iff.mp ⟨found, matched, rfl⟩
      exact ⟨pattern, held, front, rest, given, Nat.succ_pos number, there, first,
        congrArg (· + 1) start.symm⟩
  unfold matchLine
  rw [Option.map_eq_some_iff]
  constructor
  · rintro ⟨found, matched, rfl⟩
    exact ⟨found.start + 1, (places _).mpr ⟨found, matched, rfl⟩, rfl⟩
  · rintro ⟨column, hits, rfl⟩
    obtain ⟨found, matched, rfl⟩ := (places column).mp hits
    exact ⟨found, matched, rfl⟩

/-- The reports on the lines from a number on are those on each of these lines. -/
theorem mem_matchLinesFrom_iff {lines ahead : List (List Char)} {number : Nat} {violation : Violation} :
    violation ∈ matchLinesFrom rule pattern filePath lines number ahead ↔
      ∃ index held, ahead[index]? = some held ∧
        matchLine rule pattern filePath lines (number + index) held = some violation := by
  induction ahead generalizing number with
  | nil => simp [matchLinesFrom]
  | cons line rest inductionHypothesis =>
    rw [matchLinesFrom, List.mem_append, Option.mem_toList, inductionHypothesis]
    constructor
    · rintro (here | ⟨index, held, listed, later⟩)
      · exact ⟨0, line, rfl, here⟩
      · exact ⟨index + 1, held, listed, by rwa [← Nat.add_assoc, Nat.add_right_comm]⟩
    · rintro ⟨index, held, listed, matched⟩
      cases index with
      | zero =>
        obtain rfl : line = held := Option.some.inj listed
        exact .inl matched
      | succ index => exact .inr ⟨index, held, listed, by rwa [Nat.add_right_comm, Nat.add_assoc]⟩

/-- Every line is reported before the lines behind it, and no line twice. -/
theorem pairwise_matchLinesFrom (lines ahead : List (List Char)) (number : Nat) :
    (matchLinesFrom rule pattern filePath lines number ahead).Pairwise fun first second =>
      first.line < second.line := by
  have named {number : Nat} {held : List Char} {violation : Violation}
      (matched : matchLine rule pattern filePath lines number held = some violation) :
      violation.line = number := by
    obtain ⟨found, _, rfl⟩ := Option.map_eq_some_iff.mp matched
    rfl
  induction ahead generalizing number with
  | nil => exact .nil
  | cons line rest inductionHypothesis =>
    refine List.pairwise_append.mpr ⟨?_, inductionHypothesis (number + 1), ?_⟩
    · cases matchLine rule pattern filePath lines number line with
      | none => exact .nil
      | some violation => exact List.pairwise_singleton _ _
    · intro first here second later
      obtain ⟨index, held, _, matched⟩ := mem_matchLinesFrom_iff.mp later
      rw [named (Option.mem_toList.mp here), named matched]
      omega

/-- The line channel reports the leftmost match on every line that has one, and nothing else. -/
theorem mem_matchLines_iff {text : List Char} {violation : Violation} :
    violation ∈ matchLines rule (lines text) filePath ↔
      ∃ line column : Nat, LineHits rule text line column ∧
        violation = report rule filePath line column "" none (snippet (lines text) line) := by
  unfold matchLines
  cases given : rule.pattern with
  | none =>
    simp only [List.not_mem_nil, false_iff]
    rintro ⟨line, column, ⟨pattern, _, _, _, same, _⟩, _⟩
    cases given.symm.trans same
  | some pattern =>
    rw [mem_matchLinesFrom_iff]
    constructor
    · rintro ⟨index, held, there, matched⟩
      rw [Nat.add_comm] at matched
      obtain ⟨column, reported⟩ := (matchLine_eq_some_iff given there).mp matched
      exact ⟨index + 1, column, reported⟩
    · rintro ⟨line, column, hits, reported⟩
      have ⟨_, held, _, _, _, positive, there, _⟩ := hits
      obtain ⟨index, rfl⟩ : ∃ index, line = index + 1 := ⟨line - 1, by omega⟩
      refine ⟨index, held, there, ?_⟩
      rw [Nat.add_comm]
      exact (matchLine_eq_some_iff given there).mpr ⟨column, hits, reported⟩

/-! The checks. -/

/-- A place is named by some reports. -/
def Places (violations : List Violation) (line column : Int) : Prop :=
  ∃ violation ∈ violations, violation.line = line ∧ violation.column = column

variable {line column : Int}

/-- Reports behind reports name the places of both. -/
theorem places_append {first second : List Violation} :
    Places (first ++ second) line column ↔ Places first line column ∨ Places second line column := by
  unfold Places
  simp only [List.mem_append, or_and_right, exists_or]

/-- Reports that are made under a condition name their places if it is met. -/
theorem places_ite {condition : Prop} [Decidable condition] {violations : List Violation} :
    Places (if condition then violations else []) line column ↔
      condition ∧ Places violations line column := by
  unfold Places
  split
  · next holds => simp [holds]
  · next fails => simp [fails]

/-- One report for each thing found names the places of the things. -/
theorem places_map {ν : Type} {found : List ν} {say : ν → Violation} :
    Places (found.map say) line column ↔
      ∃ thing ∈ found, (say thing).line = line ∧ (say thing).column = column := by
  constructor
  · rintro ⟨_, member, place⟩
    obtain ⟨thing, listed, rfl⟩ := List.mem_map.mp member
    exact ⟨thing, listed, place⟩
  · rintro ⟨thing, listed, place⟩
    exact ⟨_, List.mem_map_of_mem listed, place⟩

/-- One report names its place. -/
theorem places_singleton {violation : Violation} :
    Places [violation] line column ↔ violation.line = line ∧ violation.column = column := by
  unfold Places
  simp only [List.mem_singleton, exists_eq_left]

/-- The checks of the language standard find fault with four kinds of facts. -/
theorem places_checkTypescript (standard : rule.standard = .typescript) :
    Places (checkTypescript rule file filePath) line column ↔ CheckHits rule file filePath line column := by
  unfold checkTypescript checkDefaultExports checkAnyParameters checkSuppressions checkTypeErrors
  simp only [places_append, places_ite, places_map, List.mem_filter, beq_iff_eq]
  constructor
  · rintro (((⟨asked, fact, ⟨found, kind⟩, rfl, rfl⟩ | ⟨asked, fact, ⟨found, context⟩, rfl, rfl⟩) |
      ⟨asked, fact, found, rfl, rfl⟩) | ⟨asked, diagnostic, found, rfl, rfl⟩)
    · exact .defaultExport standard asked found kind
    · exact .parameter standard asked found context
    · exact .suppression standard asked found
    · exact .typeError standard asked found
  · intro hits
    cases hits with
    | defaultExport _ asked found kind =>
      exact .inl (.inl (.inl ⟨asked, _, ⟨found, kind⟩, rfl, rfl⟩))
    | parameter _ asked found context => exact .inl (.inl (.inr ⟨asked, _, ⟨found, context⟩, rfl, rfl⟩))
    | suppression _ asked found => exact .inl (.inr ⟨asked, _, found, rfl, rfl⟩)
    | typeError _ asked found => exact .inr ⟨asked, _, found, rfl, rfl⟩
    | classComponent other | hook other | serverData other | directive other | page other =>
      cases standard.symm.trans other

/-- Hooks without the client directive are reported at the beginning. -/
theorem places_checkHookDirective :
    Places (checkHookDirective rule file filePath) line column ↔
      file.facts.hooks ≠ [] ∧ file.facts.usesClient = false ∧ 1 = line ∧ 1 = column := by
  unfold checkHookDirective
  cases file.facts.hooks with
  | nil => simp [Places]
  | cons first others =>
    cases file.facts.usesClient with
    | true => simp [Places]
    | false => simp [places_singleton, report]

/-- The checks of the component standard find fault with class components, with hooks that lack the
directive, and with local state in place of fetched data. -/
theorem places_checkReact (standard : rule.standard = .react) :
    Places (checkReact rule file filePath) line column ↔ CheckHits rule file filePath line column := by
  unfold checkReact checkClassComponents checkServerData Facts.classComponents
  simp only [places_append, places_ite, places_map, places_checkHookDirective, List.mem_filter,
    beq_iff_eq, Bool.or_eq_true, Bool.and_eq_true, Bool.not_eq_true']
  constructor
  · rintro ((⟨asked, fact, ⟨found, byClass⟩, rfl, rfl⟩ | ⟨asked, hooks, client, rfl, rfl⟩) |
      ⟨asked, ⟨client, fetched⟩, fact, ⟨found, name⟩, rfl, rfl⟩)
    · exact .classComponent standard asked found byClass
    · exact .hook standard asked hooks client
    · exact .serverData standard asked client fetched found name
  · intro hits
    cases hits with
    | classComponent _ asked found byClass =>
      exact .inl (.inl ⟨asked, _, ⟨found, byClass⟩, rfl, rfl⟩)
    | hook _ asked hooks client => exact .inl (.inr ⟨asked, hooks, client, rfl, rfl⟩)
    | serverData _ asked client fetched found name =>
      exact .inr ⟨asked, ⟨client, fetched⟩, _, ⟨found, name⟩, rfl, rfl⟩
    | defaultExport other | parameter other | suppression other | typeError other | directive other
    | page other => cases standard.symm.trans other

/-- The checks of the framework standard find fault with hooks that lack a directive, and with pages
that are client components. -/
theorem places_checkNextjs (standard : rule.standard = .nextjs) :
    Places (checkNextjs rule file filePath) line column ↔ CheckHits rule file filePath line column := by
  unfold checkNextjs checkDirective checkServerPage
  simp only [places_append, places_ite, places_singleton, beq_iff_eq, Bool.or_eq_true,
    Bool.and_eq_true, Bool.not_eq_true', List.isEmpty_eq_false_iff]
  constructor
  · rintro (⟨asked, ⟨⟨hooks, client⟩, server⟩, rfl, rfl⟩ | ⟨asked, ⟨name, client⟩, rfl, rfl⟩)
    · exact .directive standard asked hooks client server
    · exact .page standard asked name client
  · intro hits
    cases hits with
    | directive _ asked hooks client server =>
      exact .inl ⟨asked, ⟨⟨hooks, client⟩, server⟩, rfl, rfl⟩
    | page _ asked name client => exact .inr ⟨asked, ⟨name, client⟩, rfl, rfl⟩
    | defaultExport other | parameter other | suppression other | typeError other
    | classComponent other | hook other | serverData other => cases standard.symm.trans other

/-- The checks of a rule's standard report the places where they find fault, and no others. -/
theorem places_checkStandard :
    Places (checkStandard rule file filePath) line column ↔ CheckHits rule file filePath line column := by
  unfold checkStandard
  split
  · next standard => exact places_checkTypescript standard
  · next standard => exact places_checkReact standard
  · next standard => exact places_checkNextjs standard
  · next typescript react nextjs =>
    constructor
    · rintro ⟨violation, member, _⟩
      cases member
    · intro hits
      cases hits with
      | defaultExport standard | parameter standard | suppression standard | typeError standard =>
        exact absurd standard typescript
      | classComponent standard | hook standard | serverData standard => exact absurd standard react
      | directive standard | page standard => exact absurd standard nextjs

/-! All channels. -/

/-- Some violations name a line exactly if one of them is on it. -/
theorem reportsLine_iff {violations : List Violation} :
    reportsLine violations line = true ↔ line ∈ violations.map (·.line) := by
  unfold reportsLine
  simp only [List.any_eq_true, beq_iff_eq, List.mem_map]

/-- A snippet does not move a violation. -/
@[simp] theorem line_withSnippet (lines : List (List Char)) (violation : Violation) :
    (withSnippet lines violation).line = violation.line := by
  unfold withSnippet
  split <;> rfl

/-- Reports beside covered lines name those of their lines that are not covered. -/
theorem mem_lines_beside {text : List Char} {covered : List Int} {violations : List Violation} :
    line ∈ (beside text covered violations).map (·.line) ↔
      line ∈ violations.map (·.line) ∧ line ∉ covered := by
  unfold beside
  simp only [List.map_map, List.mem_map, List.mem_filter, decide_eq_true_eq, Function.comp_apply,
    line_withSnippet]
  constructor
  · rintro ⟨violation, ⟨member, kept⟩, rfl⟩
    exact ⟨⟨violation, member, rfl⟩, kept⟩
  · rintro ⟨⟨violation, member, rfl⟩, kept⟩
    exact ⟨violation, ⟨member, kept⟩, rfl⟩

/-- The node channel names the lines of the nodes that pass the test. -/
theorem mem_lines_matchNodes {source : List Char} {tree : Node} :
    line ∈ (matchNodes rule source tree filePath).map (·.line) ↔
      ∃ node ∈ tree.preorder, NodeHits rule source node ∧ (node.line : Int) = line := by
  unfold matchNodes NodeHits
  cases rule.nodeTest with
  | none => simp
  | some test =>
    rw [Node.nodes_eq_preorder]
    simp only [List.map_map, List.mem_map, List.mem_filter, beq_iff_eq, Option.some.injEq,
      exists_eq_left', and_assoc]
    rfl

/-- The reports of a rule, channel by channel. A later channel keeps what is on other lines. -/
theorem matchRule_eq (rule : Rule) (file : SourceFile) (text : List Char) (filePath : String) :
    matchRule rule file text filePath =
      matchLines rule (lines text) filePath ++
        beside text ((matchLines rule (lines text) filePath).map (·.line))
          (checkStandard rule file filePath) ++
        beside text ((matchLines rule (lines text) filePath ++ checkStandard rule file filePath).map (·.line))
          (matchNodes rule file.source file.tree filePath) := by
  have free (violations : List Violation) (line : Int) :
      (!reportsLine violations line) = decide (line ∉ violations.map (·.line)) := by
    rw [Bool.eq_iff_iff, Bool.not_eq_true', decide_eq_true_eq, ← reportsLine_iff, Bool.not_eq_true]
  unfold matchRule matchSyntax beside
  simp only [free, List.filter_append, List.filter_filter, List.map_append, List.append_assoc,
    List.mem_append, not_or, Bool.decide_and]

/-- **The union of the channels.** The reports of a rule are those of its pattern, one for each line on
which it is found, in the order of the lines and at the leftmost match; then those of the checks on
lines that the pattern does not hit, and then those of the node test on lines that neither the pattern
nor any check hits, each with the lines around it. So exactly the lines that a channel hits are
reported, none of them by two channels, and each report carries the rule and the given path. -/
theorem matchRule_unites (rule : Rule) (file : SourceFile) (text : List Char) (filePath : String) :
    ∃ found checked tested : List Violation,
      matchRule rule file text filePath = found ++ checked ++ tested ∧
      found.Pairwise (fun first second => first.line < second.line) ∧
      (∀ violation, violation ∈ found ↔ ∃ line column : Nat, LineHits rule text line column ∧
        violation = report rule filePath line column "" none (snippet (lines text) line)) ∧
      checked = beside text (found.map (·.line)) (checkStandard rule file filePath) ∧
      tested = beside text ((found ++ checkStandard rule file filePath).map (·.line))
        (matchNodes rule file.source file.tree filePath) ∧
      (∀ line : Int, line ∈ (matchRule rule file text filePath).map (·.line) ↔
        (∃ number column : Nat, LineHits rule text number column ∧ (number : Int) = line) ∨
          (∃ column, CheckHits rule file filePath line column) ∨
          ∃ node ∈ file.tree.preorder, NodeHits rule file.source node ∧ (node.line : Int) = line) ∧
      (found.map (·.line)).Disjoint (checked.map (·.line)) ∧
      (found.map (·.line)).Disjoint (tested.map (·.line)) ∧
      (checked.map (·.line)).Disjoint (tested.map (·.line)) ∧
      ∀ violation ∈ matchRule rule file text filePath, IsReport rule filePath violation := by
  have byLine (line : Int) : line ∈ (matchLines rule (lines text) filePath).map (·.line) ↔
      ∃ number column : Nat, LineHits rule text number column ∧ (number : Int) = line := by
    rw [List.mem_map]
    constructor
    · rintro ⟨violation, member, rfl⟩
      obtain ⟨number, column, hits, rfl⟩ := mem_matchLines_iff.mp member
      exact ⟨number, column, hits, rfl⟩
    · rintro ⟨number, column, hits, rfl⟩
      exact ⟨_, mem_matchLines_iff.mpr ⟨number, column, hits, rfl⟩, rfl⟩
  have byCheck (line : Int) : line ∈ (checkStandard rule file filePath).map (·.line) ↔
      ∃ column, CheckHits rule file filePath line column := by
    simp only [← places_checkStandard, Places, List.mem_map]
    constructor
    · rintro ⟨violation, member, rfl⟩
      exact ⟨_, violation, member, rfl, rfl⟩
    · rintro ⟨_, violation, member, rfl, _⟩
      exact ⟨violation, member, rfl⟩
  refine ⟨_, _, _, matchRule_eq rule file text filePath, ?order, fun _ => mem_matchLines_iff, rfl, rfl,
    fun line => ?lines, ?lineCheck, ?lineNode, ?checkNode, allReports_matchRule rule file text filePath⟩
  case order =>
    unfold matchLines
    split
    · exact .nil
    · exact pairwise_matchLinesFrom _ _ 1
  case lines =>
    rw [matchRule_eq, List.map_append, List.map_append, List.mem_append, List.mem_append,
      mem_lines_beside, mem_lines_beside, List.map_append, List.mem_append, ← byLine, ← byCheck,
      ← mem_lines_matchNodes]
    tauto
  case lineCheck => exact fun line found checked => (mem_lines_beside.mp checked).2 found
  case lineNode =>
    intro line found tested
    refine (mem_lines_beside.mp tested).2 ?_
    rw [List.map_append]
    exact List.mem_append_left _ found
  case checkNode =>
    intro line checked tested
    refine (mem_lines_beside.mp tested).2 ?_
    rw [List.map_append]
    exact List.mem_append_right _ (mem_lines_beside.mp checked).1

end Conformance.Matching
