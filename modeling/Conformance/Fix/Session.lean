import Conformance.Backup.Session
import Conformance.Compiler.Check
import Conformance.Fix.Changes
import Conformance.Fix.Report

/-!
# Fix sessions

Each file is backed up, changed, written and verified, and put back if it does not pass.
A dry run only changes texts: nothing is backed up, written or verified. The verifier is
a parameter with a state of its own, so every statement holds whatever it answers.
-/

namespace Conformance.Fix

/-- What checks a written file, given its own state and the disk. -/
abbrev Verifier (σ : Type) := σ → Disk → Path → Except Interruption Bool × σ

/-- What a session works with. -/
structure Engine (σ : Type) where
  fixers : List Fixer
  verify : Verifier σ
  /-- The time of the backups. -/
  now : Moment

/-- How far a session has come. -/
structure State (σ : Type) where
  disk : Disk
  /-- The backups of the files; a dry run has none. -/
  session : Option BackupSession
  report : Report
  verifier : σ

/-- A session that writes files needs backups. -/
inductive EngineError where
  | backupsMissing
  deriving Repr, DecidableEq

/-- What is said about a session that cannot be made. -/
def EngineError.message : EngineError → String
  | .backupsMissing => "a backup manager is required unless dry_run is set"

/-- What is said about a file that does not pass and has been put back. -/
def rollbackMessage : String := "type check failed - rollback applied"

/-- An interruption by a file that cannot be put back. -/
def Interruption.ofRestore : RestoreError → Interruption
  | .refused error => .backup error
  | .access error => .access error
  | .wrongType => .other ""

namespace State

variable {σ : Type}

/-- A new session. A dry run keeps no backups. -/
def start (disk : Disk) (session : Option BackupSession) (dryRun : Bool) (verifier : σ) :
    Except EngineError (State σ) :=
  if dryRun then .ok ⟨disk, none, .empty true, verifier⟩
  else match session with
    | none => .error .backupsMissing
    | some session => .ok ⟨disk, some session, .empty false, verifier⟩

/-- Whether nothing is to be written. -/
def isDryRun (state : State σ) : Bool := state.session.isNone

/-- Back a file up. -/
def backUp (state : State σ) (now : Moment) (path : Path) : Except Interruption (State σ) :=
  match state.session with
  | none => .ok state
  | some session =>
    match session.backup now state.disk path with
    | .error error => .error (.access error)
    | .ok (_, session, disk) => .ok { state with disk := disk, session := some session }

/-- Enter what has been done to a text. -/
def enter (state : State σ) (file : String) (changes : Changes) : State σ :=
  let report := changes.failures.foldl (fun report message => report.addFailure file message)
    state.report
  { state with report := { report with
      fixed := report.fixed + changes.applied
      skipped := report.skipped + changes.skipped } }

/-- Enter a file that has been changed. -/
def enterModified (state : State σ) (file : String) : State σ :=
  { state with report := { state.report with filesModified := state.report.filesModified ++ [file] } }

/-- Put a file back that does not pass. Its fixes do not count. -/
def rollBack (state : State σ) (session : BackupSession) (path : Path) (applied : Nat) :
    Except Interruption Bool × State σ :=
  let state := { state with report := { state.report with fixed := state.report.fixed - applied } }
  match session.restore state.disk path with
  | .error error => (.error (.ofRestore error), state)
  | .ok (_, disk) =>
    (.ok false, { state with
      disk := disk
      report := state.report.addFailure path.text rollbackMessage })

/-- Write a changed text and keep it if it passes. -/
def commit (engine : Engine σ) (state : State σ) (session : BackupSession) (path : Path)
    (changes : Changes) : Except Interruption Bool × State σ :=
  match state.disk.write path (Text.encode changes.text) with
  | .error error => (.error (.access error), state)
  | .ok disk =>
    let (verdict, verifier) := engine.verify state.verifier disk path
    let state := { state with disk := disk, verifier := verifier }
    match verdict with
    | .error reason => (.error reason, state)
    | .ok true => (.ok true, state.enterModified path.text)
    | .ok false => state.rollBack session path changes.applied

/-- Change the text of a file. The answer says whether it was changed and the change was
kept. -/
def change (engine : Engine σ) (state : State σ) (path : Path) (violations : List Violation) :
    Except Interruption Bool × State σ :=
  match state.disk.read path with
  | .error error => (.error (.access error), state)
  | .ok bytes =>
    match Text.decode bytes with
    | .error error => (.error (.encoding error), state)
    | .ok text =>
      let (changes, broken) := Changes.make engine.fixers violations text
      let state := state.enter path.text changes
      match broken with
      | some reason => (.error reason, state)
      | none =>
        if changes.applied = 0 then (.ok false, state)
        else match state.session with
          | none => (.ok true, state.enterModified path.text)
          | some session => state.commit engine session path changes

/-- Fix one file: back it up and change it. -/
def fixFile (engine : Engine σ) (state : State σ) (path : Path) (violations : List Violation) :
    Except Interruption Bool × State σ :=
  let state := { state with report :=
    { state.report with totalViolations := state.report.totalViolations + violations.length } }
  match state.backUp engine.now path with
  | .error reason => (.error reason, state)
  | .ok state => state.change engine path violations

/-- Fix files one after the other. An interruption that concerns one file is entered as
its failure; any other ends the session. -/
def fixEach (engine : Engine σ) : State σ → List (Path × List Violation) → Option Interruption × State σ
  | state, [] => (none, state)
  | state, (path, violations) :: rest =>
    let (result, state) := state.fixFile engine path violations
    match result with
    | .ok _ => fixEach engine state rest
    | .error reason =>
      if reason.isLocal then
        fixEach engine { state with report := state.report.addFailure path.text reason.message } rest
      else (some reason, state)

/-- Store the records of the backups, also after an interruption, and report. -/
def finish (state : State σ) (broken : Option Interruption) : Except Interruption Report × State σ :=
  match state.session with
  | none =>
    match broken with
    | some reason => (.error reason, state)
    | none => (.ok state.report, state)
  | some session =>
    match session.saveManifest state.disk with
    | .error error => (.error (.access error), state)
    | .ok disk =>
      let state := { state with disk := disk }
      match broken with
      | some reason => (.error reason, state)
      | none =>
        (.ok { state.report with
          backups := session.records
          manifestPath := some session.manifestPath.text }, state)

/-- Fix every file in turn, with a report of its own. -/
def fixAll (engine : Engine σ) (state : State σ) (groups : List (Path × List Violation)) :
    Except Interruption Report × State σ :=
  let (broken, state) := fixEach engine { state with report := .empty state.isDryRun } groups
  state.finish broken

/-- Put every file back that is backed up. -/
def rollBackAll (state : State σ) : Except RestoreError Nat × State σ :=
  match state.session with
  | none => (.ok 0, state)
  | some session =>
    let (disk, result) := session.restoreAll state.disk
    (result, { state with disk := disk })

end State

/-- What a failed check of the compiler breaks off. -/
def Interruption.ofCheck : Compiler.CheckError → Interruption
  | .refused message => .system message
  | .command error => .other error.message
  | .number _ => .other ""

/-- The verifier that asks the compiler about each file, from the directory of the file.
Its state is the invocations so far. -/
def compilerVerifier (program : Compiler.CompilerProgram) (command : Compiler.Command)
    (directory : Option Path) : Verifier (List Compiler.Invocation) := fun calls _ path =>
  let (result, calls) := Compiler.checkFile program command directory path calls
  (match result with
    | .ok passed => .ok passed
    | .error error => .error (.ofCheck error), calls)

end Conformance.Fix
