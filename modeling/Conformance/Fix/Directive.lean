import Conformance.Fix.ConsoleCalls
import Conformance.Pattern.Reader

/-!
# Adding the client directive

A source that calls hooks gets the client directive as its first line of code, behind
the blank lines and comments at its top.
-/

namespace Conformance.Fix

open Text

/-- The line of the directive. -/
def directiveLine : List Char := "\"use client\";".toList

/-- The call of a hook. -/
def hookCall : Pattern := .ofText "\\buse[A-Z]\\w*\\s*\\("

/-- Whether a line without blanks at its ends holds no code. -/
def isIdleLine (text : List Char) : Bool := text.isEmpty || isCommentLine text

/-- The position of the first line of code. -/
def firstCodeFrom : (position : Nat) → List (List Char) → Option Nat
  | _, [] => none
  | position, line :: rest =>
    if isIdleLine (trim line) then firstCodeFrom (position + 1) rest else some position

/-- The position of the first line of code, or the top if there is none. -/
def firstCodeLine (lines : List (List Char)) : Nat := (firstCodeFrom 0 lines).getD 0

/-- Whether a line begins with a directive. -/
def isDirectiveLine (line : List Char) : Bool :=
  let text := trim line
  ['\'', '"'].any fun mark => ["use client", "use server"].any fun words =>
    (mark :: words.toList ++ [mark]).isPrefixOf text

/-- Whether the first line of code is a directive. -/
def hasDirective (text : List Char) : Bool :=
  let lines := splitLines text
  ((lines[firstCodeLine lines]?).map isDirectiveLine).getD false

/-- A text with the directive and a blank line before its first line of code. -/
def addDirective (text : List Char) : List Char :=
  let lines := splitLines text
  let position := firstCodeLine lines
  joinLines (lines.take position ++ [directiveLine, []] ++ lines.drop position)

/-- Whether a violation is about a missing directive. -/
def isAboutDirective (violation : Violation) : Bool :=
  mentions "use-client" violation.ruleName || mentions "directive" violation.ruleName ||
    occursIn "use client".toList (lower violation.message.toList)

/-- The fixer that adds the client directive. -/
def directiveFixer : Fixer :=
  { kind := "UseClientDirectiveFixer"
    name := "Add \"use client\" directive"
    ruleName := "use-client"
    description := "Adds a use client directive to components that call React hooks"
    claims := fun violation text =>
      .ok (isAboutDirective violation && !hasDirective text && hookCall.occursIn text)
    fix := fun _ text => if hasDirective text then .unchanged else .fixed (addDirective text) }

end Conformance.Fix
