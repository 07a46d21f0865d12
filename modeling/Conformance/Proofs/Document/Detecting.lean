import Conformance.Document.Rules
import Conformance.Matching.Lines
import Conformance.Proofs.Fix.ExportPatterns
import Conformance.Proofs.Pattern.Forms

/-!
# Examples that are detected

The pattern of a rule is derived from a fragment of the example to be avoided. The fragment is looked
for in the whole example, the pattern on each of its lines. What the patterns take can be told without
them, so it can be told which examples are detected by the rule that they make.
-/

namespace Conformance.Document

open Text Regex Pattern Matching
open Conformance.Fix (anyBlanks nameLetters)

/-- The fragments of examples from which a pattern is derived. -/
inductive Fragment where
  | anyType
  | defaultExport
  | consoleLog
  | varWord
  | tsIgnore
  | evalCall
  | innerHtml
  | classComponent
  deriving Repr, DecidableEq

namespace Fragment

/-- The fragments in the order in which they are looked for. -/
def all : List Fragment :=
  [anyType, defaultExport, consoleLog, varWord, tsIgnore, evalCall, innerHtml, classComponent]

/-- The pattern that looks for a fragment, and the one that detects it. -/
def patterns : Fragment → Pattern × Pattern
  | anyType => (.ofText ":\\s*any\\b", .ofText ":\\s*any\\s*[=;,)]")
  | defaultExport => (.ofText "export\\s+default", .ofText "export\\s+default")
  | consoleLog => (.ofText "console\\.log", .ofText "console\\.(log|debug|info)")
  | varWord => (.ofText "\\bvar\\s", .ofText "\\bvar\\s+\\w+")
  | tsIgnore => (.ofText "@ts-ignore", .ofText "@ts-ignore")
  | evalCall => (.ofText "\\beval\\s*\\(", .ofText "\\beval\\s*\\(")
  | innerHtml => (.ofText "dangerouslySetInnerHTML", .ofText "dangerouslySetInnerHTML")
  | classComponent => (.ofText "class\\s+\\w+\\s+extends\\s+(React\\.)?Component\\b",
      .ofText "class\\s+\\w+\\s+extends\\s+(React\\.)?Component\\b")

/-- The fragments and their patterns are those of the table. -/
theorem patterns_all : all.map patterns = fragmentPatterns := rfl

/-- What the two patterns of a fragment are read as. -/
def regexes : Fragment → Regex × Regex
  | anyType =>
    (spelled ":".toList (.seq anyBlanks (spelled "any".toList .wordEdge)),
      spelled ":".toList (.seq anyBlanks (spelled "any".toList (.seq anyBlanks
        (.oneOf false (['=', ';', ',', ')'].map fun mark => .range mark mark))))))
  | defaultExport =>
    let words := spelled "export".toList (.seq Fix.blanks (spelledOut "default".toList))
    (words, words)
  | consoleLog =>
    (spelledOut "console.log".toList,
      spelled "console.".toList (.group 1 (.either (spelledOut "log".toList)
        (.either (spelledOut "debug".toList) (spelledOut "info".toList)))))
  | varWord =>
    (.seq .wordEdge (spelled "var".toList (.oneOf false [.blank false])),
      .seq .wordEdge (spelled "var".toList (.seq Fix.blanks nameLetters)))
  | tsIgnore => (spelledOut "@ts-ignore".toList, spelledOut "@ts-ignore".toList)
  | evalCall =>
    let call := .seq .wordEdge (spelled "eval".toList (.seq anyBlanks (spelledOut "(".toList)))
    (call, call)
  | innerHtml => (spelledOut "dangerouslySetInnerHTML".toList, spelledOut "dangerouslySetInnerHTML".toList)
  | classComponent =>
    let library := .loop (.group 1 (spelledOut "React.".toList)) 0 (some 1) true
    let head := spelled "class".toList (.seq Fix.blanks (.seq nameLetters (.seq Fix.blanks
      (spelled "extends".toList (.seq Fix.blanks (.seq library (spelled "Component".toList .wordEdge)))))))
    (head, head)

/-- The patterns are read as they are meant. -/
theorem regex_patterns (fragment : Fragment) : fragment.patterns.1.regex = fragment.regexes.1 ∧
    fragment.patterns.2.regex = fragment.regexes.2 := by
  cases fragment <;> decide +kernel

/-- Blanks, as many as are needed. -/
def IsGap (least : Nat) (gap : List Char) : Prop := least ≤ gap.length ∧ ∀ c ∈ gap, isBlank c = true

/-- A name of at least one letter. -/
def IsName (name : List Char) : Prop := 1 ≤ name.length ∧ ∀ c ∈ name, isWord c = true

/-- What a fragment looks like. -/
def Shows : Fragment → Form
  | anyType => fun _ piece wordBehind => wordBehind = false ∧
      ∃ gap, IsGap 0 gap ∧ piece = ":".toList ++ (gap ++ "any".toList)
  | defaultExport => fun _ piece _ =>
      ∃ gap, IsGap 1 gap ∧ piece = "export".toList ++ (gap ++ "default".toList)
  | consoleLog => fun _ piece _ => piece = "console.log".toList
  | varWord => fun wordBefore piece _ => wordBefore = false ∧
      ∃ c, isBlank c = true ∧ piece = "var".toList ++ [c]
  | tsIgnore => fun _ piece _ => piece = "@ts-ignore".toList
  | evalCall => fun wordBefore piece _ => wordBefore = false ∧
      ∃ gap, IsGap 0 gap ∧ piece = "eval".toList ++ (gap ++ "(".toList)
  | innerHtml => fun _ piece _ => piece = "dangerouslySetInnerHTML".toList
  | classComponent => fun _ piece wordBehind => wordBehind = false ∧
      ∃ first name second third library, IsGap 1 first ∧ IsName name ∧ IsGap 1 second ∧ IsGap 1 third ∧
        (library = [] ∨ library = "React.".toList) ∧
        piece = "class".toList ++ (first ++ (name ++ (second ++ ("extends".toList ++ (third ++
          (library ++ "Component".toList))))))

/-- What a fragment is detected by. -/
def Betrays : Fragment → Form
  | anyType => fun _ piece _ => ∃ first second mark, IsGap 0 first ∧ IsGap 0 second ∧
      mark ∈ ['=', ';', ',', ')'] ∧ piece = ":".toList ++ (first ++ ("any".toList ++ (second ++ [mark])))
  | consoleLog => fun _ piece _ =>
      ∃ method ∈ ["log", "debug", "info"], piece = "console.".toList ++ method.toList
  | varWord => fun wordBefore piece _ => wordBefore = false ∧
      ∃ gap name, IsGap 1 gap ∧ IsName name ∧ piece = "var".toList ++ (gap ++ name)
  | fragment => fragment.Shows

/-- Blanks are read by the class of blanks. -/
theorem fits_gap_iff {before : Option Char} {offset least : Nat} {text rest : List Char} :
    Fits (.loop (.oneOf false [.blank false]) least none true) before offset text rest ↔
      IsGap least text := by
  rw [fits_set_iff]
  simp [IsGap, itemMatches]

/-- A name is read by the class of word characters. -/
theorem fits_name_iff {before : Option Char} {offset : Nat} {text rest : List Char} :
    Fits nameLetters before offset text rest ↔ IsName text := by
  rw [nameLetters, fits_set_iff]
  simp [IsName, itemMatches]

variable {before : Option Char} {offset : Nat} {piece behind : List Char}

/-- A colon and the name of the type are read with blanks between them and no word behind them. -/
theorem fits_anyType : Fits (regexes anyType).1 before offset piece behind ↔
    anyType.Shows (before.any isWord) piece (beginsWithWord behind) := by
  have last : endsInWord "any".toList = true := by decide
  simp only [regexes, fits_spelled_iff, fits_seq_iff, anyBlanks, fits_gap_iff, fits_word_end_iff last]
  constructor
  · rintro ⟨_, rfl, gap, _, rfl, blank, plain, rfl⟩
    exact ⟨plain, gap, blank, rfl⟩
  · rintro ⟨plain, gap, blank, rfl⟩
    exact ⟨_, rfl, gap, _, rfl, blank, plain, rfl⟩

/-- A colon, the name of the type and a mark are read with blanks between them. -/
theorem fits_anyType_detector : Fits (regexes anyType).2 before offset piece behind ↔
    anyType.Betrays (before.any isWord) piece (beginsWithWord behind) := by
  simp only [regexes, fits_spelled_iff, fits_seq_iff, anyBlanks, fits_gap_iff, fits_marks_iff]
  constructor
  · rintro ⟨_, rfl, first, _, rfl, blank, _, rfl, second, _, rfl, more, mark, among, rfl⟩
    exact ⟨first, second, mark, blank, more, among, rfl⟩
  · rintro ⟨first, second, mark, blank, more, among, rfl⟩
    exact ⟨_, rfl, first, _, rfl, blank, _, rfl, second, _, rfl, more, mark, among, rfl⟩

/-- The two words of a default export are read with blanks between them. -/
theorem fits_defaultExport : Fits (regexes defaultExport).1 before offset piece behind ↔
    defaultExport.Shows (before.any isWord) piece (beginsWithWord behind) := by
  simp only [regexes, fits_spelled_iff, fits_seq_iff, Fix.blanks, fits_gap_iff, fits_spelledOut_iff]
  constructor
  · rintro ⟨_, rfl, gap, _, rfl, blank, rfl⟩
    exact ⟨gap, blank, rfl⟩
  · rintro ⟨gap, blank, rfl⟩
    exact ⟨_, rfl, gap, _, rfl, blank, rfl⟩

/-- The object and one of three methods are read. -/
theorem fits_consoleLog_detector : Fits (regexes consoleLog).2 before offset piece behind ↔
    consoleLog.Betrays (before.any isWord) piece (beginsWithWord behind) := by
  simp only [regexes, fits_spelled_iff, fits_group_iff, fits_either_iff, fits_spelledOut_iff]
  constructor
  · rintro ⟨_, rfl, rfl | rfl | rfl⟩
    · exact ⟨"log", by simp, rfl⟩
    · exact ⟨"debug", by simp, rfl⟩
    · exact ⟨"info", by simp, rfl⟩
  · rintro ⟨method, among, rfl⟩
    simp only [List.mem_cons, List.not_mem_nil, or_false] at among
    refine ⟨method.toList, rfl, ?_⟩
    rcases among with rfl | rfl | rfl
    · exact .inl rfl
    · exact .inr (.inl rfl)
    · exact .inr (.inr rfl)

/-- The word is read with one blank behind it and no word before it. -/
theorem fits_varWord : Fits (regexes varWord).1 before offset piece behind ↔
    varWord.Shows (before.any isWord) piece (beginsWithWord behind) := by
  have first : beginsWithWord "var".toList = true := by decide
  simp only [regexes, fits_word_start_iff first, fits_oneOf_iff]
  refine and_congr_right fun _ => ?_
  constructor
  · rintro ⟨_, rfl, c, blank, rfl⟩
    exact ⟨c, by simpa [itemMatches] using blank, rfl⟩
  · rintro ⟨c, blank, rfl⟩
    exact ⟨_, rfl, c, by simpa [itemMatches] using blank, rfl⟩

/-- The word and a name are read with blanks between them and no word before them. -/
theorem fits_varWord_detector : Fits (regexes varWord).2 before offset piece behind ↔
    varWord.Betrays (before.any isWord) piece (beginsWithWord behind) := by
  have first : beginsWithWord "var".toList = true := by decide
  simp only [regexes, fits_word_start_iff first, fits_seq_iff, Fix.blanks, fits_gap_iff, fits_name_iff]
  refine and_congr_right fun _ => ?_
  constructor
  · rintro ⟨_, rfl, gap, name, rfl, blank, letters⟩
    exact ⟨gap, name, blank, letters, rfl⟩
  · rintro ⟨gap, name, blank, letters, rfl⟩
    exact ⟨_, rfl, gap, name, rfl, blank, letters⟩

/-- The name of the function and a bracket are read with blanks between them and no word before them. -/
theorem fits_evalCall : Fits (regexes evalCall).1 before offset piece behind ↔
    evalCall.Shows (before.any isWord) piece (beginsWithWord behind) := by
  have first : beginsWithWord "eval".toList = true := by decide
  simp only [regexes, fits_word_start_iff first, fits_seq_iff, anyBlanks, fits_gap_iff, fits_spelledOut_iff]
  refine and_congr_right fun _ => ?_
  constructor
  · rintro ⟨_, rfl, gap, _, rfl, blank, rfl⟩
    exact ⟨gap, blank, rfl⟩
  · rintro ⟨gap, blank, rfl⟩
    exact ⟨_, rfl, gap, _, rfl, blank, rfl⟩

/-- The parts of a class head are read with blanks between them and no word behind them. -/
theorem fits_classComponent : Fits (regexes classComponent).1 before offset piece behind ↔
    classComponent.Shows (before.any isWord) piece (beginsWithWord behind) := by
  have last : endsInWord "Component".toList = true := by decide
  simp only [regexes, fits_spelled_iff, fits_seq_iff, Fix.blanks, fits_gap_iff, fits_name_iff,
    fits_optional_iff, fits_group_iff, fits_spelledOut_iff, fits_word_end_iff last]
  constructor
  · rintro ⟨_, rfl, first, _, rfl, blank, name, _, rfl, letters, second, _, rfl, more, _, rfl, third, _,
      rfl, again, library, _, rfl, known, plain, rfl⟩
    exact ⟨plain, first, name, second, third, library, blank, letters, more, again, known, rfl⟩
  · rintro ⟨plain, first, name, second, third, library, blank, letters, more, again, known, rfl⟩
    exact ⟨_, rfl, first, _, rfl, blank, name, _, rfl, letters, second, _, rfl, more, _, rfl, third, _,
      rfl, again, library, _, rfl, known, plain, rfl⟩

/-- What looks for a fragment takes exactly what the fragment looks like. -/
theorem takes_shows (fragment : Fragment) : (patterns fragment).1.Takes fragment.Shows where
  steady := by
    rw [(regex_patterns fragment).1]
    cases fragment <;> rfl
  filled := by
    rw [(regex_patterns fragment).1]
    cases fragment <;> rfl
  exactCase := by cases fragment <;> rfl
  fits_iff before offset piece behind := by
    rw [(regex_patterns fragment).1]
    cases fragment with
    | anyType => exact fits_anyType
    | defaultExport => exact fits_defaultExport
    | varWord => exact fits_varWord
    | evalCall => exact fits_evalCall
    | classComponent => exact fits_classComponent
    | consoleLog | tsIgnore | innerHtml => exact fits_spelledOut_iff

/-- What detects a fragment takes exactly what betrays it. -/
theorem takes_betrays (fragment : Fragment) : (patterns fragment).2.Takes fragment.Betrays where
  steady := by
    rw [(regex_patterns fragment).2]
    cases fragment <;> rfl
  filled := by
    rw [(regex_patterns fragment).2]
    cases fragment <;> rfl
  exactCase := by cases fragment <;> rfl
  fits_iff before offset piece behind := by
    rw [(regex_patterns fragment).2]
    cases fragment with
    | anyType => exact fits_anyType_detector
    | consoleLog => exact fits_consoleLog_detector
    | varWord => exact fits_varWord_detector
    | defaultExport => exact fits_defaultExport
    | evalCall => exact fits_evalCall
    | classComponent => exact fits_classComponent
    | tsIgnore | innerHtml => exact fits_spelledOut_iff

/-- A fragment that stands in a text, and none of those that are looked for before it does. -/
def IsFirstIn (fragment : Fragment) (text : List Char) : Prop :=
  fragment.Shows.StandsIn text ∧
    ∃ earlier later, all = earlier ++ fragment :: later ∧ ∀ other ∈ earlier, ¬ other.Shows.StandsIn text

/-- Whether a fragment is always the same text. -/
def isFixed : Fragment → Bool
  | consoleLog | tsIgnore | innerHtml => true
  | _ => false

/-- A fragment that is always the same text betrays itself on one line. -/
theorem standsOnLine_of_isFixed {fragment : Fragment} (fixed : fragment.isFixed = true)
    {text : List Char} (stands : fragment.Shows.StandsIn text) :
    fragment.Betrays.StandsOnLine text := by
  obtain ⟨before, piece, behind, rfl, same⟩ := stands
  cases fragment with
  | consoleLog =>
    obtain rfl : piece = _ := same
    exact ⟨before, _, behind, rfl, by decide, "log", by simp, rfl⟩
  | tsIgnore =>
    obtain rfl : piece = _ := same
    exact ⟨before, _, behind, rfl, by decide, rfl⟩
  | innerHtml =>
    obtain rfl : piece = _ := same
    exact ⟨before, _, behind, rfl, by decide, rfl⟩
  | _ => cases fixed

end Fragment

/-- The pattern that is derived from an example is the one for its first fragment. -/
theorem exists_fragment {text : List Char} {pattern : Pattern}
    (derived : derivePattern text = some pattern) :
    ∃ fragment : Fragment, fragment.IsFirstIn text ∧ pattern = fragment.patterns.2 := by
  rw [derivePattern, ← Fragment.patterns_all, List.find?_map, Option.map_map] at derived
  obtain ⟨fragment, found, rfl⟩ := Option.map_eq_some_iff.mp derived
  obtain ⟨shown, earlier, later, split, none⟩ := List.find?_eq_some_iff_append.mp found
  refine ⟨fragment, ⟨(fragment.takes_shows.occursIn_iff text).mp shown, earlier, later, split, ?_⟩, rfl⟩
  intro other member stands
  have hidden := none other member
  have occurs := (other.takes_shows.occursIn_iff text).mpr stands
  simp [occurs] at hidden

/-- The pattern of a rule reports something exactly if it is found on some line. -/
theorem matchLines_ne_nil_iff {rule : Rule} {pattern : Pattern} (given : rule.pattern = some pattern)
    (lines : List (List Char)) (filePath : String) :
    matchLines rule lines filePath ≠ [] ↔ ∃ line ∈ lines, pattern.occursIn line = true := by
  have onward (number : Nat) (ahead : List (List Char)) :
      matchLinesFrom rule pattern filePath lines number ahead ≠ [] ↔
        ∃ line ∈ ahead, pattern.occursIn line = true := by
    induction ahead generalizing number with
    | nil => simp [matchLinesFrom]
    | cons line ahead inductionHypothesis =>
      simp only [List.mem_cons, exists_eq_or_imp]
      rw [← inductionHypothesis (number + 1), matchLinesFrom, matchLine, Pattern.occursIn]
      cases pattern.search line <;> simp
  rw [matchLines, given]
  exact onward 1 lines

/-- The pattern that is derived from an example is found on one of its lines, and reported by its rule,
exactly if the first fragment of the example is always the same text, or what betrays the fragment stands
in the example and no line ends in it. -/
theorem example_detected_iff (standard : Standard) (number : Nat) (heading : List Char)
    (pair : ExamplePair) (filePath : String) (pattern : Pattern)
    (derived : derivePattern pair.incorrect = some pattern) :
    ∃ fragment : Fragment, fragment.IsFirstIn pair.incorrect ∧ pattern = fragment.patterns.2 ∧
      ((∃ line ∈ lines pair.incorrect, pattern.occursIn line = true) ↔
        fragment.isFixed = true ∨ fragment.Betrays.StandsOnLine pair.incorrect) ∧
      (matchLines (ruleOfPair standard number heading pair) (lines pair.incorrect) filePath ≠ [] ↔
        fragment.isFixed = true ∨ fragment.Betrays.StandsOnLine pair.incorrect) := by
  obtain ⟨fragment, first, rfl⟩ := exists_fragment derived
  have found : (∃ line ∈ lines pair.incorrect, fragment.patterns.2.occursIn line = true) ↔
      fragment.isFixed = true ∨ fragment.Betrays.StandsOnLine pair.incorrect := by
    rw [fragment.takes_betrays.exists_line_iff]
    constructor
    · exact .inr
    · rintro (fixed | stands)
      · exact Fragment.standsOnLine_of_isFixed fixed first.1
      · exact stands
  exact ⟨fragment, first, rfl, found, (matchLines_ne_nil_iff derived _ _).trans found⟩

/-- A call that is broken over two lines, with one that is not behind it. -/
def brokenCall : ExamplePair := ⟨"eval\n(a);\neval(b);".toList, "f(a, b);".toList, []⟩

/-- The call on one line is detected, though the broken one stands first. -/
theorem example_detected_brokenCall :
    derivePattern brokenCall.incorrect = some (Fragment.patterns .evalCall).2 ∧
      matchLines (ruleOfPair .security 1 "Calls".toList brokenCall) (lines brokenCall.incorrect)
        "lib/a.ts" ≠ [] := by
  have derived : derivePattern brokenCall.incorrect = some (Fragment.patterns .evalCall).2 := by
    decide +kernel
  refine ⟨derived, ?_⟩
  obtain ⟨fragment, _, same, _, detected⟩ :=
    example_detected_iff .security 1 "Calls".toList brokenCall "lib/a.ts" _ derived
  obtain rfl : fragment = .evalCall := by
    cases fragment with
    | evalCall => rfl
    | _ => exact absurd (congrArg Pattern.source same) (by decide)
  have call : Fragment.evalCall.Betrays false "eval(".toList (beginsWithWord "b);".toList) :=
    ⟨rfl, [], ⟨Nat.zero_le _, by simp⟩, rfl⟩
  exact detected.mpr (.inr ⟨"eval\n(a);\n".toList, _, "b);".toList, rfl, by decide, call⟩)

/-- A type at the end of its line, where none of the marks stands behind it. -/
def bareType : ExamplePair := ⟨"let x: any".toList, "let x: number".toList, []⟩

/-- A pattern is derived from a type at the end of its line, and the pattern does not detect it. -/
theorem bareType_undetected :
    derivePattern bareType.incorrect = some (Fragment.patterns .anyType).2 ∧
      matchLines (ruleOfPair .testing 1 "No any type".toList bareType) (lines bareType.incorrect)
        "lib/a.ts" = [] := by
  decide +kernel

end Conformance.Document
