import Conformance.Command.Outcome
import Conformance.Command.Request
import Conformance.Fix.Fixers
import Conformance.Text.Table

/-!
# Commands

The commands that audit a project, fix it, show a stored result, show the rules, and put
files back. Each is work on the disk and the compiler that it is given, so what a command
does can be stated for all of them.
-/

namespace Conformance.Command

open Audit

/-- Work that ends with an outcome of another kind when it fails. -/
def orEnd {ε α : Type} (ending : ε → Ending) : Except ε α → Task α
  | .ok value => pure value
  | .error error => throw (ending error)

/-- The disk as it is by now. -/
def currentDisk : Task Disk := do return (← get).disk

/-- The root of the project, the working directory if none is named. -/
def projectRoot (project : Option Path) : Task Path := do
  let disk ← currentDisk
  return (disk.resolve (project.getD ⟨"", []⟩)).path

/-- Refused settings are complained about. -/
def endOfSettings : ConfigFailure → Ending
  | .refused error => .complained (.settings error) 2
  | failure => .failed (.settings failure)

/-- Missing standards and repeated rules are complained about. -/
def endOfAudit : AuditFailure → Ending
  | .standards (.directoryMissing path) => .complained (.standards (.directoryMissing path)) 2
  | .duplicate error => .complained (.duplicate error) 2
  | failure => .failed (.audit failure)

/-- The settings of a project, with others put over them. -/
def settings (root : Path) (overrides : Config.Overrides) : Task Config := do
  let disk ← currentDisk
  let config ← orEnd endOfSettings (Config.load disk root)
  return config.override overrides

/-- The settings that the options of a command put over those of the project. -/
def overridesOf (standards : List Standard) (severity : Option Severity) : Config.Overrides :=
  { standards := if standards.isEmpty then none else some standards
    minSeverity := severity }

/-- Audit a project. -/
def audit (surroundings : Surroundings) (root : Path) (config : Config) : Task AuditResult := do
  let world ← get
  let (result, calls) := auditProject surroundings.compiler world.disk root config none world.calls
  set { world with calls }
  orEnd endOfAudit result

/-- Change the disk, which may fail. -/
def changeDisk {ε : Type} (ending : ε → Ending) (change : Disk → Except ε Disk) : Task Unit := do
  let world ← get
  let disk ← orEnd ending (change world.disk)
  set { world with disk }

/-- A result that cannot be stored. Too many digits are the same failure as when they are read. -/
def endOfSave : SaveError → Ending
  | .access error => .failed (.access error)
  | .oversized error => .failed (.load (.oversized error))

/-- Where the last result of a project is stored. -/
def latestResult (root : Path) (config : Config) : Path :=
  (Config.resolve root config.reportDirectory).child "latest.json"

/-- A result in a format, for a result whose integers are short enough to be written. -/
def render (format : Format) (result : StoredResult) : Except Report.TableError (List Char) :=
  match format with
  | .plain => .ok (Report.plain result)
  | .json => .ok result.text
  | .markdown => Report.markdown result

/-- A result in a format, or the end of the command. -/
def rendered (format : Format) (result : StoredResult) : Task (List Char) :=
  orEnd (fun error => .failed (.table error)) (render format result)

/-- Audit a project, store the result and show it. -/
def run (surroundings : Surroundings) (options : RunOptions) : Task Ending := do
  let root ← projectRoot options.project
  let config ← settings root { overridesOf options.standards options.severity with
    maxViolations := options.maxViolations
    typeCheck := if options.typeCheck then some true else none }
  let result ← audit surroundings root config
  changeDisk endOfSave fun disk => result.stored.save disk (latestResult root config)
  let text ← rendered options.format result.stored
  return .finished (text ++ ['\n']) (if options.strict && !result.violations.isEmpty then 1 else 0)

/-- A verifier that accepts every file. -/
def acceptAll : Fix.Verifier (List Compiler.Invocation) := fun calls _ _ => (.ok true, calls)

/-- The name of a session: as it is given, or the time. -/
def sessionName (now : Moment) : Option String → String
  | some name => if name = "" then now.compact else name
  | none => now.compact

/-- The backups of a session that writes files. -/
def sessionOf (surroundings : Surroundings) (root : Path) (config : Config) (options : FixOptions) :
    Option BackupSession :=
  let directory :=
    if options.noBackup then surroundings.temporary else Config.resolve root config.backupDirectory
  if options.dryRun then none
  else some (.start directory (sessionName surroundings.now options.sessionName))

/-- Fix files and report. Backups that are not to be kept are taken away at the end. -/
def fixGroups (surroundings : Surroundings) (root : Path) (config : Config) (options : FixOptions)
    (groups : List (Path × List Violation)) : Task Fix.Report := do
  let world ← get
  let verifier := if options.noVerify then acceptAll
    else Fix.compilerVerifier surroundings.compiler config.command (some root)
  let engine : Fix.Engine (List Compiler.Invocation) :=
    ⟨Fix.defaultFixers, verifier, surroundings.now⟩
  let state : Fix.State (List Compiler.Invocation) :=
    ⟨world.disk, sessionOf surroundings root config options, .empty options.dryRun, world.calls⟩
  let (report, state) := state.fixAll engine groups
  let temporary := options.noBackup && !options.dryRun
  set (⟨if temporary then state.disk.removeTree surroundings.temporary else state.disk,
    state.verifier⟩ : World)
  let report ← orEnd (fun reason => .failed (.interruption reason)) report
  return if temporary then { report with manifestPath := none } else report

/-- Audit a project and fix what can be fixed. -/
def fix (surroundings : Surroundings) (options : FixOptions) : Task Ending := do
  let root ← projectRoot options.project
  let config ← settings root (overridesOf options.standards options.severity)
  let result ← audit surroundings root config
  let report ← fixGroups surroundings root config options (groupByFile root result.violations)
  return .finished (report.text ++ ['\n']) 0

/-- The stored result that is to be shown. -/
def inputOf (root : Path) (options : ReportOptions) : Task Path := do
  match options.input with
  | some path => return path
  | none =>
    let config ← settings root {}
    let path := latestResult root config
    if (← currentDisk).isFile path then return path
    else throw (.complained (.noSavedResult path) 2)

/-- A result that cannot be loaded is complained about, unless the disk fails, the document is
nested too deep or a number is beyond all numbers of its kind. -/
def endOfLoad (path : Path) : LoadError → Ending
  | .access error => .failed (.load (.access error))
  | .tooDeep => .failed (.load .tooDeep)
  | .unfit .unbounded => .failed (.load (.unfit .unbounded))
  | error => .complained (.notResult path error) 2

/-- Show a stored result, or write it to a file. -/
def report (options : ReportOptions) : Task Ending := do
  let root ← projectRoot options.project
  let input ← inputOf root options
  let result ← orEnd (endOfLoad input) (StoredResult.load (← currentDisk) input)
  let text ← rendered options.format result
  match options.output with
  | none => return .finished (text ++ ['\n']) 0
  | some path =>
    changeDisk (fun error => .failed (.access error)) fun disk =>
      (disk.makeDirectories path.parent).bind fun disk =>
        disk.write path (Text.encode (text ++ ['\n']))
    return .finished ("Report written to ".toList ++ path.text.toList ++ ['\n']) 0

/-- How many rules of each severity a standard has, and how many in all. -/
def standardRow (rules : List Rule) (standard : Standard) : List (List Char) :=
  let own := rules.filter fun rule => rule.standard == standard
  standard.name.toList ::
    (Severity.all.map fun severity => Number.digits (own.countP fun rule => rule.severity == severity)) ++
    [Number.digits own.length]

/-- The table of the standards that have rules. -/
def standardTable (rules : List Rule) : List (List Char) :=
  let present := Standard.all.filter fun standard => rules.any fun rule => rule.standard == standard
  Text.boxedTable ("Rules (".toList ++ Number.digits rules.length ++ [')'])
    (⟨"Standard", false⟩ :: (Severity.all.map fun severity => ⟨severity.name, true⟩) ++ [⟨"total", true⟩])
    (present.map (standardRow rules))

/-- How a rule looks for violations. -/
def detectorText (rule : Rule) : List Char :=
  let pattern : List String := if rule.pattern.isSome then ["regex"] else []
  let test : List String := (rule.nodeTest.map fun test => "ast:" ++ test.kind.name).toList
  let found := pattern ++ test
  if found.isEmpty then ['-'] else (", ".intercalate found).toList

/-- The columns of a terminal. -/
def terminalWidth : Nat := 80

/-- The table of all rules. -/
def ruleTable (rules : List Rule) : List (List Char) :=
  Text.openTable terminalWidth
    [⟨"ID", false⟩, ⟨"Name", false⟩, ⟨"Severity", false⟩, ⟨"Detector", false⟩]
    (rules.map fun rule =>
      [rule.id.toList, rule.name.toList, rule.severity.name.toList, detectorText rule])

/-- Show the rules of a project. -/
def rules (options : RulesOptions) : Task Ending := do
  let root ← projectRoot options.project
  let config ← settings root {}
  let registry ← orEnd endOfAudit (Registry.ofProject (← currentDisk) root config)
  let shown := if options.standards.isEmpty then registry.rules
    else registry.filter none (some options.standards)
  let lines := standardTable shown ++ if options.showAll then [] :: ruleTable shown else []
  return .finished (lines.flatMap (· ++ ['\n'])) 0

/-- Files that cannot be put back are complained about, unless the disk fails. -/
def endOfRestore : ManifestRestoreError → Ending
  | .manifest (.undecodable error) => .failed (.manifest (.manifest (.undecodable error)))
  | .manifest (.oversized error) => .failed (.manifest (.manifest (.oversized error)))
  | .manifest .tooDeep => .failed (.manifest (.manifest .tooDeep))
  | .manifest error => .complained (.manifest error) 1
  | .restore (.refused error) => .complained (.restore error) 1
  | error => .failed (.manifest error)

/-- Put every file back that a manifest records. -/
def rollBack (manifest : Path) : Task Ending := do
  let world ← get
  let (disk, result) := Manifest.restore world.disk manifest
  set { world with disk }
  let records ← orEnd endOfRestore result
  let lines := ("Restored ".toList ++ Number.digits records.length ++ " files".toList) ::
    records.map fun record => ' ' :: ' ' :: record.filePath.shown
  return .finished (lines.flatMap (· ++ ['\n'])) 0

/-- The version of the program. -/
def versionText : String := "standards-audit, version 0.1.0\n"

/-- What can be asked for. -/
def helpText : String :=
  "Usage: standards-audit [OPTIONS] COMMAND [ARGS]...\n\n" ++
  "  Audit a TypeScript code base against markdown coding standards.\n\n" ++
  "Options:\n  --version\n  -v, --verbose\n  -q, --quiet\n  --help\n\n" ++
  "Commands:\n" ++
  "  run       [--project DIR] [--standard NAME]... [--severity NAME] [--max-violations N]\n" ++
  "            [--format rich|json|markdown] [--type-check] [--strict]\n" ++
  "  fix       [--project DIR] [--standard NAME]... [--severity NAME] [--dry-run]\n" ++
  "            [--no-backup] [--no-verify] [--session-id NAME]\n" ++
  "  report    [--project DIR] [--input FILE] [--format rich|json|markdown] [--output FILE]\n" ++
  "  rules     [--project DIR] [--standard NAME]... [--all]\n" ++
  "  rollback  --manifest FILE\n"

/-- Do what is asked for. -/
def answer (surroundings : Surroundings) : Request → Task Ending
  | .run options => run surroundings options
  | .fix options => fix surroundings options
  | .report options => report options
  | .rules options => rules options
  | .rollBack manifest => rollBack manifest
  | .version => return .finished versionText.toList 0
  | .help => return .finished helpText.toList 0

/-- Carry a command line out. -/
def execute (surroundings : Surroundings) (arguments : List String) (world : World) : Ending × World :=
  match Request.ofArguments world.disk arguments with
  | .error error => (.refused error, world)
  | .ok request =>
    match (answer surroundings request).run.run world with
    | (.ok ending, world) => (ending, world)
    | (.error ending, world) => (ending, world)

end Conformance.Command
