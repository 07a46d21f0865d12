import Conformance.Audit.Project
import Conformance.Backup.Manifest
import Conformance.Command.Options
import Conformance.Fix.Session
import Conformance.Report.Markdown

/-!
# What comes of a command

A command changes the disk and calls the compiler, and ends with a text and an exit code,
with a complaint about what it was given, or with a failure that nobody has foreseen.
-/

namespace Conformance.Command

/-- What a command needs from outside. -/
structure Surroundings where
  compiler : Compiler.CompilerProgram
  now : Moment
  /-- A directory that nobody else uses. -/
  temporary : Path

/-- What a command changes. -/
structure World where
  disk : Disk
  calls : List Compiler.Invocation

/-- A complaint about what a command was given. -/
inductive Complaint where
  | settings (error : ConfigError)
  | standards (error : Document.DirectoryError)
  | duplicate (error : Audit.DuplicateRule)
  | noSavedResult (path : Path)
  | notResult (path : Path) (error : LoadError)
  | manifest (error : ManifestError)
  | restore (error : BackupError)
  deriving Repr, DecidableEq

/-- What is said about a result that cannot be loaded. -/
def loadMessage (path : Path) (detail : String) (error : LoadError) : String :=
  match error with
  | .access error => error.message
  | .encoding error => error.message
  | .oversized error => error.message
  | .unfit (.badValue reason) => reason.message
  | _ => LoadError.noResultMessage path detail

/-- The words of a complaint. The detail tells the cause, where there is another one. -/
def Complaint.message (detail : String) : Complaint → String
  | .settings error => error.message
  | .standards error => error.message
  | .duplicate error => error.message
  | .noSavedResult path => "no saved result at " ++ path.text ++ "; run an audit first."
  | .notResult path error => loadMessage path detail error
  | .manifest error => error.message detail
  | .restore error => error.message

/-- A failure that no command has foreseen. -/
inductive Failure where
  | settings (failure : ConfigFailure)
  | audit (failure : Audit.AuditFailure)
  | access (error : DiskError)
  | load (error : LoadError)
  | table (error : Report.TableError)
  | interruption (reason : Fix.Interruption)
  | manifest (error : ManifestRestoreError)
  deriving Repr, DecidableEq

/-- How a command ends. -/
inductive Ending where
  | finished (output : List Char) (exitCode : Nat)
  | complained (complaint : Complaint) (exitCode : Nat)
  | failed (failure : Failure)
  | refused (error : UsageError)
  deriving Repr, DecidableEq

namespace Ending

/-- The exit code of an ending. -/
def exitCode : Ending → Nat
  | .finished _ exitCode => exitCode
  | .complained _ exitCode => exitCode
  | .failed _ => 1
  | .refused _ => 2

/-- What is written to the standard output. -/
def output : Ending → List Char
  | .finished output _ => output
  | _ => []

/-- What is written about a complaint. -/
def complaintText (detail : String) : Ending → List Char
  | .complained complaint _ => ("Error: " ++ complaint.message detail ++ "\n").toList
  | _ => []

end Ending

/-- The cause behind a complaint. -/
def Complaint.cause : Complaint → String
  | .manifest (.unreadable _ (.access error)) => error.message
  | .notResult _ (.access error) => error.message
  | _ => "the content does not have the form that is expected"

/-- What is written to the standard error. -/
def Ending.errorOutput : Ending → List Char
  | .finished _ _ => []
  | .complained complaint exitCode => complaintText complaint.cause (.complained complaint exitCode)
  | .failed _ => "Error: the command could not be carried out\n".toList
  | .refused error => ("Error: " ++ error.message ++ "\n").toList

/-- Work that changes the world and may end early. -/
abbrev Task (α : Type) := ExceptT Ending (StateM World) α

end Conformance.Command
