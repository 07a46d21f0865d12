import Conformance.Audit.Validation
import Conformance.Compiler.Check
import Conformance.Config
import Conformance.Document.Directory

/-!
# Auditing a project

The whole way from the settings of a project to its result: the rules of its standards,
the messages of the compiler if they are asked for, the files that are scanned, and their
violations. What goes wrong first ends the audit.
-/

namespace Conformance.Audit

/-- Why a project cannot be audited. -/
inductive AuditFailure where
  | settings (failure : ConfigFailure)
  | standards (error : Document.DirectoryError)
  | duplicate (error : DuplicateRule)
  | check (error : Compiler.CheckError)
  | outside (error : OutsideRoot)
  deriving Repr, DecidableEq

/-- The registry of the rules in a directory of standards. -/
def Registry.ofDirectory (disk : Disk) (directory : Path) : Except AuditFailure Registry :=
  match Document.readDirectory disk directory with
  | .error error => .error (.standards error)
  | .ok documents =>
    match Registry.ofRules (documents.flatMap (·.rules)) with
    | .error error => .error (.duplicate error)
    | .ok registry => .ok registry

/-- The registry of the rules that a project is checked against. -/
def Registry.ofProject (disk : Disk) (root : Path) (config : Config) : Except AuditFailure Registry :=
  Registry.ofDirectory disk (Config.resolve root config.standardsDirectory)

/-- What the options of an audit take from the settings. -/
def Options.ofConfig (config : Config) (typeCheck : Option Compiler.Context) : Options :=
  ⟨config.minSeverity, config.standards, config.maxViolations, typeCheck⟩

/-- Ask the compiler about a project, if the settings want it. -/
def typeCheck (program : Compiler.CompilerProgram) (disk : Disk) (root : Path) (config : Config)
    (calls : List Compiler.Invocation) :
    Except AuditFailure (Option Compiler.Context) × List Compiler.Invocation :=
  if config.typeCheck then
    let (result, calls) := Compiler.checkProject program config.command disk root calls
    (match result with
      | .error error => .error (.check error)
      | .ok context => .ok (some context), calls)
  else (.ok none, calls)

/-- Scan a project and validate its files. -/
def validateProject (disk : Disk) (root : Path) (config : Config) (registry : Registry)
    (context : Option Compiler.Context) : Except AuditFailure AuditResult :=
  match scan disk config.scanConfig root with
  | .error error => .error (.outside error)
  | .ok files =>
    match validate disk files registry.rules (.ofConfig config context) with
    | .error error => .error (.duplicate error)
    | .ok result => .ok result

/-- Audit a project against a registry, or against that of its settings. -/
def auditProject (program : Compiler.CompilerProgram) (disk : Disk) (root : Path) (config : Config)
    (registry : Option Registry) (calls : List Compiler.Invocation) :
    Except AuditFailure AuditResult × List Compiler.Invocation :=
  let root := (disk.resolve root).path
  let registry : Except AuditFailure Registry := match registry with
    | some registry => .ok registry
    | none => Registry.ofProject disk root config
  match registry with
  | .error error => (.error error, calls)
  | .ok registry =>
    let (context, calls) := typeCheck program disk root config calls
    match context with
    | .error error => (.error error, calls)
    | .ok context => (validateProject disk root config registry context, calls)

/-- Audit a project with the settings that it has. -/
def auditWithOwnSettings (program : Compiler.CompilerProgram) (disk : Disk) (root : Path)
    (registry : Option Registry) (calls : List Compiler.Invocation) :
    Except AuditFailure AuditResult × List Compiler.Invocation :=
  match Config.load disk (disk.resolve root).path with
  | .error failure => (.error (.settings failure), calls)
  | .ok config => auditProject program disk root config registry calls

end Conformance.Audit
