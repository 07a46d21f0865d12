import Conformance.Compiler.Diagnostic
import Conformance.Compiler.Words

/-!
# Running the compiler

The compiler is called with a command for the whole project or for one file. It is given
as a function from the number of the call and the invocation to its answer, so every
statement about a check holds for all compilers. The invocations are kept in order.
-/

namespace Conformance.Compiler

open Syntax

/-- One call of the compiler. -/
structure Invocation where
  arguments : List String
  directory : Path
  /-- The time limit in seconds. -/
  timeout : Int
  deriving Repr, DecidableEq

/-- What comes of a call. -/
inductive Response where
  | completed (returnCode : Int) (standardOutput standardError : List Char)
  | missing
  | timedOut
  /-- The system refuses the call for another reason. -/
  | refused (message : String)
  deriving Repr, DecidableEq

/-- A compiler answers every call; its answers may depend on how often it was called. -/
abbrev CompilerProgram := (call : Nat) → Invocation → Response

/-- How the compiler is called. -/
structure Command where
  text : String
  timeout : Int
  deriving Repr, DecidableEq

/-- The usual command. -/
def defaultCommand : String := "npx --no-install tsc"

/-- The usual time limit in seconds. -/
def defaultTimeout : Int := 120

/-- Arguments that make the compiler check only, and write one message to a line. -/
def checkArguments : List String := ["--noEmit", "--pretty", "false"]

/-- Why a check fails with no answer at all. -/
inductive CheckError where
  | command (error : WordsError)
  | number (error : UnreadableNumber)
  | refused (message : String)
  deriving Repr, DecidableEq

/-- Call the compiler and keep the invocation. -/
def call (program : CompilerProgram) (calls : List Invocation) (invocation : Invocation) :
    Response × List Invocation :=
  (program calls.length invocation, calls ++ [invocation])

/-- The messages of a completed check. What is written to the two outputs is read as one
text. -/
def contextOfResponse (disk : Disk) (root : Path) : Response → Except CheckError Context
  | .completed returnCode standardOutput standardError =>
    match messages disk root (standardOutput ++ standardError) with
    | .ok found => .ok (.ofMessages found (returnCode == 0))
    | .error error => .error (.number error)
  | .missing => .ok ⟨[], false⟩
  | .timedOut => .ok ⟨[], false⟩
  | .refused message => .error (.refused message)

/-- Check a whole project. Without an answer of the compiler there are no messages, and
the check has not succeeded. -/
def checkProject (program : CompilerProgram) (command : Command) (disk : Disk) (root : Path)
    (calls : List Invocation) : Except CheckError Context × List Invocation :=
  let root := (disk.resolve root).path
  match words command.text with
  | .error error => (.error (.command error), calls)
  | .ok words =>
    let (response, calls) := call program calls ⟨words ++ checkArguments, root, command.timeout⟩
    (contextOfResponse disk root response, calls)

/-- Whether a response accepts a file. -/
def acceptsFile : Response → Except CheckError Bool
  | .completed returnCode _ _ => .ok (returnCode == 0)
  | .missing => .ok false
  | .timedOut => .ok false
  | .refused message => .error (.refused message)

/-- Check one file, from a given directory or from its own. Without an answer of the
compiler the file is not accepted. -/
def checkFile (program : CompilerProgram) (command : Command) (directory : Option Path) (path : Path)
    (calls : List Invocation) : Except CheckError Bool × List Invocation :=
  match words command.text with
  | .error error => (.error (.command error), calls)
  | .ok words =>
    let (response, calls) := call program calls
      ⟨words ++ checkArguments ++ [path.text], directory.getD path.parent, command.timeout⟩
    (acceptsFile response, calls)

end Conformance.Compiler
