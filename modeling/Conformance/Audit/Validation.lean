import Conformance.Audit.Ranking
import Conformance.Audit.Registry
import Conformance.Audit.Scan
import Conformance.Audit.Score
import Conformance.Compiler.Diagnostic
import Conformance.Matching.Channels

/-!
# Validating files

Every rule is matched against every file that can be read and parsed; other files are
left out. The violations of all files are put in order and cut at a limit. The tallies
count what is left, the scores count everything.
-/

namespace Conformance.Audit

open Syntax

/-- What to validate. -/
structure Options where
  minSeverity : Option Severity := none
  /-- The allowed standards; an empty list allows all. -/
  standards : List Standard := []
  maxViolations : Option Int := none
  typeCheck : Option Compiler.Context := none

/-- Why a file is left out. -/
inductive SkippedFile where
  | unreadable (error : TextError)
  | unparsed (error : SourceError)
  deriving Repr, DecidableEq

/-- The compiler's messages about a file. -/
def typeErrorsOf (disk : Disk) (typeCheck : Option Compiler.Context) (path : Path) : List Diagnostic :=
  match typeCheck with
  | some context => context.forFile disk path
  | none => []

/-- Read and parse a source file. -/
def readSource (disk : Disk) (typeCheck : Option Compiler.Context) (path : Path) :
    Except SkippedFile (SourceFile × List Char) :=
  match disk.readText path with
  | .error error => .error (.unreadable error)
  | .ok text =>
    match SourceFile.parse path text (typeErrorsOf disk typeCheck path) with
    | .error error => .error (.unparsed error)
    | .ok file => .ok (file, text)

/-- The result of a file from its violations and its lines. -/
def fileResult (relativePath : String) (violations : List Violation) (lineCount : Nat) : FileResult :=
  ⟨relativePath, violations, lineCount, fileScore (violations.map (·.severity)) lineCount⟩

/-- Match every rule against a file. -/
def validateFile (disk : Disk) (rules : List Rule) (typeCheck : Option Compiler.Context)
    (file : ScannedFile) : Except SkippedFile FileResult :=
  match readSource disk typeCheck file.path with
  | .error error => .error error
  | .ok (source, text) =>
    let violations := rules.flatMap fun rule =>
      Matching.matchRule rule source text file.relativePath
    .ok (fileResult file.relativePath violations (Text.lines text).length)

/-- The rules that the options select. -/
def selectRules (rules : List Rule) (options : Options) : Except DuplicateRule (List Rule) :=
  match Registry.ofRules rules with
  | .error error => .error error
  | .ok registry =>
    .ok (registry.filter options.minSeverity
      (if options.standards.isEmpty then none else some options.standards))

/-- The first violations up to a limit. -/
def capped (limit : Option Int) (violations : List Violation) : List Violation :=
  match limit with
  | some limit => if (violations.length : Int) > limit then limited limit violations else violations
  | none => violations

/-- The result of a project from those of its files. -/
def combine (files : List FileResult) (limit : Option Int) : AuditResult :=
  let violations := capped limit (inOrder (files.flatMap (·.violations)))
  { totalFiles := files.length
    totalViolations := violations.length
    score := overallScore (files.map (·.score))
    byStandard := tallyByStandard violations
    bySeverity := tallyBySeverity violations
    violations := violations
    files := files
    milliseconds := .zero }

/-- Validate files against rules. -/
def validate (disk : Disk) (files : List ScannedFile) (rules : List Rule) (options : Options) :
    Except DuplicateRule AuditResult :=
  match selectRules rules options with
  | .error error => .error error
  | .ok selected =>
    .ok (combine (files.filterMap fun file =>
      (validateFile disk selected options.typeCheck file).toOption) options.maxViolations)

end Conformance.Audit
