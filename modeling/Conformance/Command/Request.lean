import Conformance.Command.Options
import Conformance.Disk.Walk
import Conformance.Number.Reading
import Conformance.Standard

/-!
# Requests

What a command line asks for. Values are checked when the line is read: names must be
known, and files and directories that are read must be there.
-/

namespace Conformance.Command

/-- How a result is shown. -/
inductive Format where
  | plain
  | json
  | markdown
  deriving Repr, DecidableEq

/-- The format of a name. -/
def Format.ofName? : String → Option Format
  | "rich" => some .plain
  | "json" => some .json
  | "markdown" => some .markdown
  | _ => none

/-- Audit a project. -/
structure RunOptions where
  project : Option Path := none
  standards : List Standard := []
  severity : Option Severity := none
  maxViolations : Option Int := none
  format : Format := .plain
  typeCheck : Bool := false
  /-- Whether violations make the command fail. -/
  strict : Bool := false

/-- Audit a project and fix what can be fixed. -/
structure FixOptions where
  project : Option Path
  standards : List Standard
  severity : Option Severity
  dryRun : Bool
  /-- Whether backups are only kept while the command runs. -/
  noBackup : Bool
  noVerify : Bool
  sessionName : Option String

/-- Show a stored result. -/
structure ReportOptions where
  project : Option Path
  input : Option Path
  format : Format
  output : Option Path

/-- Show the rules of a project. -/
structure RulesOptions where
  project : Option Path
  standards : List Standard
  showAll : Bool

/-- What is asked for. -/
inductive Request where
  | run (options : RunOptions)
  | fix (options : FixOptions)
  | report (options : ReportOptions)
  | rules (options : RulesOptions)
  | rollBack (manifest : Path)
  | version
  | help

/-- The options before the name of a command. -/
def mainGrammar : Grammar :=
  ⟨["--verbose", "--quiet", "--version", "--help"], [], [('v', "--verbose"), ('q', "--quiet")], false⟩

/-- The grammar of a command's own options. -/
def commandGrammar : String → Option Grammar
  | "run" => some ⟨["--type-check", "--strict", "--help"],
      ["--project", "--standard", "--severity", "--max-violations", "--format"], [], true⟩
  | "fix" => some ⟨["--dry-run", "--no-backup", "--no-verify", "--help"],
      ["--project", "--standard", "--severity", "--session-id"], [], true⟩
  | "report" => some ⟨["--help"], ["--project", "--input", "--format", "--output"], [], true⟩
  | "rules" => some ⟨["--all", "--help"], ["--project", "--standard"], [], true⟩
  | "rollback" => some ⟨["--help"], ["--manifest"], [], true⟩
  | _ => none

/-- What stands at a path as it is written: a slash at its end asks for a directory, and
nothing is nowhere. -/
def writtenEntry? (disk : Disk) (text : String) : Option Entry :=
  let asksDirectory := match text.toList.reverse with
    | '/' :: _ => true
    | '.' :: '/' :: _ => true
    | _ => false
  match disk.entryAt? (.ofString text) with
  | none => none
  | some .directory => if text = "" then none else some .directory
  | some entry => if asksDirectory then none else some entry

namespace Given

/-- The value of an option, made by a reader that may refuse it. -/
def read {α : Type} (given : Given) (name : String) (reader : String → Option α) :
    Except UsageError (Option α) :=
  match given.value? name with
  | none => .ok none
  | some text =>
    match reader text with
    | some value => .ok (some value)
    | none => .error (.badValue name text)

/-- The directory that an option names. -/
def directory (given : Given) (disk : Disk) (name : String) : Except UsageError (Option Path) :=
  given.read name fun text =>
    match writtenEntry? disk text with
    | some .directory => some (Path.ofString text)
    | _ => none

/-- The file that an option names, which must be there. -/
def file (given : Given) (disk : Disk) (name : String) : Except UsageError (Option Path) :=
  given.read name fun text =>
    match writtenEntry? disk text with
    | some (.file _) => some (Path.ofString text)
    | _ => none

/-- The file that an option names, which may be missing. -/
def target (given : Given) (disk : Disk) (name : String) : Except UsageError (Option Path) :=
  given.read name fun text =>
    match writtenEntry? disk text with
    | some .directory => none
    | _ => some (Path.ofString text)

/-- The standards that an option names. -/
def standards (given : Given) : Except UsageError (List Standard) :=
  (given.values "--standard").mapM fun text =>
    match Standard.ofName? text with
    | some standard => .ok standard
    | none => .error (.badValue "--standard" text)

/-- The severity that an option names. -/
def severity (given : Given) : Except UsageError (Option Severity) :=
  given.read "--severity" Severity.ofName?

/-- The positive number that an option gives. -/
def positive (given : Given) (name : String) : Except UsageError (Option Int) :=
  given.read name fun text =>
    match Number.integer? text.toList with
    | some value => if 1 ≤ value then some value else none
    | none => none

/-- The format that an option names. -/
def format (given : Given) (usual : Format) : Except UsageError Format :=
  (given.read "--format" Format.ofName?).map fun found => found.getD usual

end Given

/-- The request for a command with its options. -/
def Request.ofGiven (disk : Disk) (command : String) (given : Given) : Except UsageError Request := do
  match command with
  | "run" => do
    pure (.run ⟨← given.directory disk "--project", ← given.standards, ← given.severity,
      ← given.positive "--max-violations", ← given.format .plain, given.has "--type-check",
      given.has "--strict"⟩)
  | "fix" => do
    pure (.fix ⟨← given.directory disk "--project", ← given.standards, ← given.severity,
      given.has "--dry-run", given.has "--no-backup", given.has "--no-verify",
      given.value? "--session-id"⟩)
  | "report" => do
    pure (.report ⟨← given.directory disk "--project", ← given.file disk "--input",
      ← given.format .markdown, ← given.target disk "--output"⟩)
  | "rules" => do
    pure (.rules ⟨← given.directory disk "--project", ← given.standards, given.has "--all"⟩)
  | _ =>
    match ← given.file disk "--manifest" with
    | some manifest => pure (.rollBack manifest)
    | none => .error (.missingOption "--manifest")

/-- The request in the arguments behind the name of a command. -/
def Request.ofCommand (disk : Disk) (command : String) (arguments : List String) :
    Except UsageError Request := do
  match commandGrammar command with
  | none => .error (.unknownCommand command)
  | some grammar =>
    let (given, _) ← readArguments grammar .empty arguments
    if given.has "--help" then pure .help
    else
      let request ← Request.ofGiven disk command given
      match given.operands with
      | [] => pure request
      | operand :: _ => .error (.unwantedOperand operand)

/-- The request in a command line. Without the name of a command a project is audited. -/
def Request.ofArguments (disk : Disk) (arguments : List String) : Except UsageError Request := do
  let (given, rest) ← readArguments mainGrammar .empty arguments
  match given.options.find? fun (name, _) => name == "--help" || name == "--version" with
  | some (name, _) => pure (if name = "--help" then .help else .version)
  | none =>
    match rest with
    | [] => pure (.run {})
    | command :: arguments => Request.ofCommand disk command arguments

end Conformance.Command
