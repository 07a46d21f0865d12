import Conformance.Backup.Record
import Conformance.Rule

/-!
# Fixers

A fixer is a change of texts that is offered violations. It says which ones it claims,
given the text at that moment, and what becomes of the text. Both can be interrupted; an
interruption by the disk, by bytes that are no text or by the backups ends the work on one
file, and any other one the whole session.
-/

namespace Conformance.Fix

/-- Why work is broken off. -/
inductive Interruption where
  | access (error : DiskError)
  | encoding (error : Text.Utf8Error)
  | backup (error : BackupError)
  /-- A failure of the system in words of its own. -/
  | system (message : String)
  /-- Something that has not been worked out is asked for. -/
  | undefinedStep
  | other (message : String)
  deriving Repr, DecidableEq

/-- What is said about an interruption. -/
def Interruption.message : Interruption → String
  | .access error => error.message
  | .encoding error => error.message
  | .backup error => error.message
  | .system message => message
  | .undefinedStep => ""
  | .other message => message

/-- Whether an interruption concerns one file only. -/
def Interruption.isLocal : Interruption → Bool
  | .access _ => true
  | .encoding _ => true
  | .backup _ => true
  | .system _ => true
  | .undefinedStep => false
  | .other _ => false

/-- What comes of a fixer's work on a text. -/
inductive Outcome where
  | fixed (text : List Char)
  /-- There was nothing to change. -/
  | unchanged
  | failed (message : String)
  | interrupted (reason : Interruption)
  deriving Repr, DecidableEq

/-- The outcome for a text that has been changed, if it has. -/
def Outcome.ofChange (before after : List Char) : Outcome :=
  if after = before then .unchanged else .fixed after

/-- A change of texts that is offered violations. -/
structure Fixer where
  /-- What the fixer is, in one word. -/
  kind : String
  name : String
  /-- The part of a rule's name that the fixer is made for. -/
  ruleName : String
  description : String
  claims : Violation → List Char → Except Interruption Bool
  fix : Violation → List Char → Outcome

/-- A fixer in one line. -/
def Fixer.text (fixer : Fixer) : String :=
  fixer.kind ++ "(name=" ++ String.ofList (Text.quoted fixer.name.toList) ++ ")"

/-- A fixer that has not been worked out. -/
def Fixer.blank : Fixer :=
  { kind := "AutoFixer"
    name := ""
    ruleName := ""
    description := ""
    claims := fun _ _ => .error .undefinedStep
    fix := fun _ _ => .interrupted .undefinedStep }

end Conformance.Fix
