import Conformance.Document.Catalogue
import Conformance.Document.Sections
import Conformance.Number.Decimal
import Conformance.Pattern.Reader
import Conformance.Rule

/-!
# What a section says about its rules

The name and severity of a rule follow from words of its section, and how to detect a
violation from fragments of the example to be avoided.
-/

namespace Conformance.Document

open Number Text

/-- The longest name of a rule. -/
def nameLimit : Nat := 50

/-- Whether a character may stand in the name of a rule, blanks apart. -/
def isNameCharacter (c : Char) : Bool := ('a' ≤ c && c ≤ 'z') || ('0' ≤ c && c ≤ '9')

/-- Every run of blanks as one hyphen. The flag says whether the run has begun. -/
def hyphenate : (inRun : Bool) → List Char → List Char
  | _, [] => []
  | inRun, c :: rest =>
    if isBlank c then if inRun then hyphenate true rest else '-' :: hyphenate true rest
    else c :: hyphenate false rest

/-- The name that a heading gives to a rule: lower case, letters and digits of ASCII,
words joined by hyphens, cut at the limit. -/
def slug (heading : List Char) : List Char :=
  let kept := (lower heading).filter fun c => isNameCharacter c || isBlank c
  (hyphenate false (trim kept)).take nameLimit

/-- Words that say how grave a violation is, in the order in which they are looked for. -/
def severityWords : List (Pattern × Severity) := [
  (.ofText "security|vulnerab|must|never|critical" ⟨true, false⟩, .error),
  (.ofText "should|recommend" ⟨true, false⟩, .warning),
  (.ofText "consider|optional" ⟨true, false⟩, .info)]

/-- The severity that a heading and a description suggest. -/
def severityOf (heading description : List Char) : Severity :=
  let text := heading ++ '\n' :: description
  ((severityWords.find? fun (words, _) => words.occursIn text).map (·.2)).getD .warning

/-- Fragments of an example to be avoided, each with the pattern that detects it. -/
def fragmentPatterns : List (Pattern × Pattern) := [
  (.ofText ":\\s*any\\b", .ofText ":\\s*any\\s*[=;,)]"),
  (.ofText "export\\s+default", .ofText "export\\s+default"),
  (.ofText "console\\.log", .ofText "console\\.(log|debug|info)"),
  (.ofText "\\bvar\\s", .ofText "\\bvar\\s+\\w+"),
  (.ofText "@ts-ignore", .ofText "@ts-ignore"),
  (.ofText "\\beval\\s*\\(", .ofText "\\beval\\s*\\("),
  (.ofText "dangerouslySetInnerHTML", .ofText "dangerouslySetInnerHTML"),
  (.ofText "class\\s+\\w+\\s+extends\\s+(React\\.)?Component\\b",
    .ofText "class\\s+\\w+\\s+extends\\s+(React\\.)?Component\\b")]

/-- Fragments of an example to be avoided, each with the node test that detects it. -/
def fragmentTests : List (Pattern × NodeTestKind) := [
  (.ofText "\\bas\\s+any\\b|<any>", .anyType),
  (.ofText "extends\\s+(React\\.)?PureComponent\\b", .classComponent)]

/-- The pattern that detects an example to be avoided. -/
def derivePattern (incorrect : List Char) : Option Pattern :=
  (fragmentPatterns.find? fun (fragment, _) => fragment.occursIn incorrect).map (·.2)

/-- The node test that detects an example to be avoided. -/
def deriveNodeTest (incorrect : List Char) : Option NodeTest :=
  (fragmentTests.find? fun (fragment, _) => fragment.occursIn incorrect).map fun (_, kind) =>
    .builtin kind

/-!
## The rules of a document

Every pair of examples makes a rule, in the order of the document; the authored rules of
the standard follow. The rules are numbered through, so that their identifiers differ.
-/

/-- A number with at least three characters, filled up with zeros behind its sign. -/
def serial (number : Int) : List Char :=
  if number < 0 then '-' :: padded 2 number.natAbs else padded 3 number.natAbs

/-- The identifier of a rule: the code of its standard and its number. -/
def ruleId (standard : Standard) (number : Int) : String :=
  standard.code ++ "-" ++ String.ofList (serial number)

/-- The rule that a pair of examples makes. A node test is derived only where no pattern
is. -/
def ruleOfPair (standard : Standard) (number : Nat) (heading : List Char) (pair : ExamplePair) : Rule :=
  let pattern := derivePattern pair.incorrect
  { id := ruleId standard number
    name := String.ofList (slug heading)
    standard := standard
    severity := severityOf heading pair.description
    message := String.ofList (if pair.description.isEmpty then heading else pair.description)
    incorrect := String.ofList pair.incorrect
    correct := String.ofList pair.correct
    pattern := pattern
    nodeTest := if pattern.isSome then none else deriveNodeTest pair.incorrect
    fixTemplate := none
    tags := [] }

/-- The rule that a catalogue entry makes. -/
def ruleOfEntry (standard : Standard) (number : Nat) (entry : CatalogueEntry) : Rule :=
  { id := ruleId standard number
    name := entry.name
    standard := standard
    severity := entry.severity
    message := entry.message
    incorrect := "Pattern-based detection"
    correct := "See standard documentation"
    pattern := entry.pattern
    nodeTest := none
    fixTemplate := entry.fixTemplate
    tags := ["catalogue"] }

/-- What makes a rule: a pair of examples under a heading, or a catalogue entry. -/
inductive Origin where
  | pair (heading : List Char) (pair : ExamplePair)
  | entry (entry : CatalogueEntry)
  deriving Repr, DecidableEq

/-- What makes the example rules of a document, in order. -/
def exampleOrigins (content : List Char) : List Origin :=
  (sections content).flatMap fun part => (examplePairs part.body).map (.pair part.heading)

/-- What makes the rules of a document, in order. -/
def origins (content : List Char) (standard : Standard) : List Origin :=
  exampleOrigins content ++ (catalogue standard).map .entry

/-- The rule with a given number. -/
def ruleOf (standard : Standard) (number : Nat) : Origin → Rule
  | .pair heading pair => ruleOfPair standard number heading pair
  | .entry entry => ruleOfEntry standard number entry

/-- Rules numbered from a given number on. -/
def numbered (standard : Standard) : Nat → List Origin → List Rule
  | _, [] => []
  | number, origin :: rest => ruleOf standard number origin :: numbered standard (number + 1) rest

/-- The rules of a document, numbered from one. -/
def rules (content : List Char) (standard : Standard) : List Rule :=
  numbered standard 1 (origins content standard)

end Conformance.Document
