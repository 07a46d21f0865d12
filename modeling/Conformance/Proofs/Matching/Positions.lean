import Conformance.Disk.Access
import Conformance.Matching.Channels
import Conformance.Proofs.Syntax.Positions

/-!
# Where the channels report

The line channel counts in the wide lines of a text, the node channel in its line feeds. A node
stands in the wide lines at the place that the node channel gives exactly if no other boundary
precedes it. Then a rule whose pattern is found where a node begins is reported there once, with the
lines around.
-/

namespace Conformance.Matching

open Syntax Text

variable {rule : Rule} {pattern : Pattern} {filePath : String}

/-- The pattern of a rule is found first at a place of the lines of a text. -/
def PatternHits (rule : Rule) (text : List Char) (place : Nat × Nat) : Prop :=
  ∃ pattern held found, rule.pattern = some pattern ∧ (lines text)[place.1 - 1]? = some held ∧
    pattern.search held = some found ∧ found.start + 1 = place.2

/-- The node test of a rule passes a node. -/
def NodeHits (rule : Rule) (source : List Char) (node : Node) : Prop :=
  ∃ test, rule.nodeTest = some test ∧ testNode source test node = .hit

/-- The report of a pattern on a line names that line and no other. -/
theorem filter_matchLine (lines : List (List Char)) (number : Nat) (held : List Char) (line : Nat) :
    (matchLine rule pattern filePath lines number held).toList.filter (·.line == (line : Int)) =
      if number = line then (matchLine rule pattern filePath lines number held).toList else [] := by
  unfold matchLine
  cases pattern.search held with
  | none => simp
  | some found =>
    by_cases same : number = line
    · simp [report, same]
    · simp [report, same, Int.ofNat_inj.not.mpr same]

/-- Of the reports on the lines from a number on, those on one line are what its pattern match
gives. -/
theorem filter_matchLinesFrom (lines : List (List Char)) (number : Nat) (ahead : List (List Char))
    (line : Nat) :
    (matchLinesFrom rule pattern filePath lines number ahead).filter (·.line == (line : Int)) =
      if number ≤ line then
        (ahead[line - number]?.bind (matchLine rule pattern filePath lines line)).toList
      else [] := by
  induction ahead generalizing number with
  | nil => simp [matchLinesFrom]
  | cons first rest inductionHypothesis =>
    rw [matchLinesFrom, List.filter_append, inductionHypothesis, filter_matchLine]
    rcases Nat.lt_trichotomy number line with before | rfl | behind
    · have further : line - number = (line - (number + 1)) + 1 := by omega
      rw [if_neg (Nat.ne_of_lt before), if_pos (Nat.succ_le_of_lt before),
        if_pos (Nat.le_of_lt before), further, List.getElem?_cons_succ, List.nil_append]
    · rw [if_pos rfl, if_neg (Nat.not_succ_le_self number), if_pos (Nat.le_refl number),
        Nat.sub_self, List.append_nil]
      rfl
    · rw [if_neg (Nat.ne_of_gt behind), if_neg (by omega), if_neg (by omega), List.append_nil]

/-- A line that the line channel reports is reported by it alone. -/
theorem filter_matchRule {file : SourceFile} {text : List Char} {line : Int}
    (reported : reportsLine (matchLines rule (lines text) filePath) line = true) :
    (matchRule rule file text filePath).filter (·.line == line) =
      (matchLines rule (lines text) filePath).filter (·.line == line) := by
  unfold matchRule
  dsimp only
  rw [List.filter_append]
  have none_ : (((matchSyntax rule file filePath).filter fun violation =>
      !reportsLine (matchLines rule (lines text) filePath) violation.line).map
        (withSnippet (lines text))).filter (·.line == line) = [] := by
    rw [List.filter_eq_nil_iff]
    intro violation listed same
    obtain ⟨other, kept, rfl⟩ := List.mem_map.mp listed
    have free := (List.mem_filter.mp kept).2
    have unchanged : (withSnippet (lines text) other).line = other.line := by
      unfold withSnippet
      split <;> rfl
    rw [unchanged, beq_iff_eq] at same
    rw [same, reported] at free
    cases free
  rw [none_, List.append_nil]

/-- The lines around a line contain it. -/
theorem snippet_contains {lines : List (List Char)} {number : Nat} {held : List Char}
    (positive : 1 ≤ number) (there : lines[number - 1]? = some held) :
    ∃ before behind, snippet lines number = joinLines (before ++ held :: behind) := by
  obtain ⟨inside, _⟩ := List.getElem?_eq_some_iff.mp there
  have filled : lines.isEmpty = false := by
    cases lines with
    | nil => cases inside
    | cons first rest => rfl
  have index : (max 0 (min ((number : Int) - 1) ((lines.length : Int) - 1))).toNat = number - 1 := by
    omega
  unfold snippet
  rw [if_neg (by rw [filled]; exact Bool.false_ne_true)]
  dsimp only
  rw [index]
  have member : held ∈ (lines.drop (number - 1 - 1)).take
      (min (lines.length - 1) (number - 1 + 1) + 1 - (number - 1 - 1)) := by
    refine List.mem_of_getElem? (i := number - 1 - (number - 1 - 1)) ?_
    rw [List.getElem?_take_of_lt (by omega), List.getElem?_drop,
      Nat.add_sub_cancel' (Nat.sub_le _ _)]
    exact there
  obtain ⟨before, behind, apart⟩ := List.append_of_mem member
  exact ⟨before, behind, congrArg joinLines apart⟩

/-- Where the pattern of a rule is found first on a line, the rule is reported on that line once, and
the snippet contains the line. -/
theorem reported_once {file : SourceFile} {text : List Char} {place : Nat × Nat}
    (positive : 1 ≤ place.1) (hits : PatternHits rule text place) :
    ∃ held before behind, (lines text)[place.1 - 1]? = some held ∧
      (matchRule rule file text filePath).filter (·.line == (place.1 : Int)) =
        [report rule filePath place.1 place.2 "" none (joinLines (before ++ held :: behind))] := by
  obtain ⟨pattern, held, found, given, there, first, column⟩ := hits
  obtain ⟨before, behind, around⟩ := snippet_contains positive there
  have alone : (matchLines rule (lines text) filePath).filter (·.line == (place.1 : Int)) =
      [report rule filePath place.1 place.2 "" none (joinLines (before ++ held :: behind))] := by
    unfold matchLines
    rw [given]
    dsimp only
    rw [filter_matchLinesFrom, if_pos positive, there, Option.bind_some, matchLine, first, around,
      ← column]
    rfl
  refine ⟨held, before, behind, there, ?_⟩
  rw [filter_matchRule, alone]
  have listed : report rule filePath place.1 place.2 "" none (joinLines (before ++ held :: behind)) ∈
      (matchLines rule (lines text) filePath).filter (·.line == (place.1 : Int)) := by
    rw [alone]
    exact List.mem_singleton.mpr rfl
  exact List.any_eq_true.mpr ⟨_, (List.mem_filter.mp listed).1, (List.mem_filter.mp listed).2⟩

/-- What is parsed keeps its text, and its tree is read from the text. -/
theorem readTree_of_parse {path : Path} {text : List Char} {typeErrors : List Diagnostic}
    {file : SourceFile} (parsed : SourceFile.parse path text typeErrors = .ok file) :
    file.source = text ∧ ∃ dialect, readTree dialect text = .ok file.tree := by
  obtain ⟨_, source, _, dialect, _, read⟩ := exists_of_parse parsed
  exact ⟨source, dialect, read⟩

/-- A text that is read from a disk has no carriage return. -/
theorem return_not_mem_readText {disk : Disk} {source : Path} {text : List Char}
    (read : disk.readText source = .ok text) : '\r' ∉ text := by
  unfold Disk.readText at read
  split at read
  · cases read
  · split at read
    · cases read
    · cases read
      exact return_not_mem_normaliseLineEnds _

/-- A declaration behind characters of two bytes. -/
def umlautText : List Char := "// ü\n/* ü */ var x = 1;\n".toList

/-- A declaration behind a form feed. -/
def formFeedText : List Char := "/*\x0c*/var x = 1;\n".toList

/-- A disk with both texts. -/
def declarationDisk : Disk :=
  ⟨["w"], [(["w"], .directory), (["w", "a.ts"], .file (encode umlautText)),
    (["w", "b.ts"], .file (encode formFeedText))]⟩

/-- A rule that looks for declarations in both ways. -/
def varRule : Rule :=
  ⟨"tes-001", "var", .testing, .warning, "", "", "", some ⟨"v", false, .char 'v'⟩,
    some (.builtin .varDeclaration), none, []⟩

/-- The declaration in a source. -/
def declaration? (file : SourceFile) : Option Node :=
  file.tree.nodes.find? fun node => testNode file.source (.builtin .varDeclaration) node == .hit

/-- The declaration of a parsed text is one of its nodes, and the rule's test passes it. -/
theorem nodeHits_declaration (path : Path) (text : List Char) (place : Nat × Nat × Nat)
    (told : ((SourceFile.parse path text []).toOption.bind declaration?).map (fun node =>
      (node.line, node.column text, node.span.startByte)) = some place) :
    ∃ file node, SourceFile.parse path text [] = .ok file ∧ node ∈ file.tree.nodes ∧
      NodeHits varRule text node ∧ (node.line, node.column text, node.span.startByte) = place := by
  obtain ⟨node, found, rfl⟩ := Option.map_eq_some_iff.mp told
  obtain ⟨file, kept, first⟩ := Option.bind_eq_some_iff.mp found
  have parsed : SourceFile.parse path text [] = .ok file := by
    cases given : SourceFile.parse path text [] with
    | error fault =>
      rw [given] at kept
      cases kept
    | ok other =>
      rw [given] at kept
      cases kept
      rfl
  unfold declaration? at first
  have passes := List.find?_some first
  rw [beq_iff_eq, (readTree_of_parse parsed).1] at passes
  exact ⟨file, node, parsed, List.mem_of_find?_eq_some first, ⟨_, rfl, passes⟩, rfl⟩

end Conformance.Matching
