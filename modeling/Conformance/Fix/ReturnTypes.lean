import Conformance.Fix.Exports

/-!
# Adding return types

Functions without a word of returning get the empty return type, asynchronous ones its
promise. A source with a function that returns a fetched value is left to a person.
-/

namespace Conformance.Fix

open Text

/-- What is said where a return type cannot be found. -/
def manualFixMessage : String := "Complex type inference required - manual fix needed"

/-- A function that returns a fetched value. -/
def fetchingFunction : Pattern :=
  .ofText "function\\s+(\\w+)\\s*\\([^)]*\\)\\s*\\\x7b[^\x7d]*return\\s+fetch\\w*"

/-- A function with a body up to its first closing brace. Its groups are the word for
asynchronous, the name, the parameters and the body. -/
def simpleFunction : Pattern :=
  .ofText "(async\\s+)?function\\s+(\\w+)\\s*\\(([^)]*)\\)\\s*\\\x7b([^\x7d]*)\\\x7d"

/-- A named arrow function with a body up to its first closing brace. Its groups are the
name, the word for asynchronous, the parameters and the body. -/
def simpleArrow : Pattern :=
  .ofText "const\\s+(\\w+)\\s*=\\s*(async\\s+)?\\(([^)]*)\\)\\s*=>\\s*\\\x7b([^\x7d]*)\\\x7d"

/-- The type of a function that returns nothing. -/
def emptyReturnType (async : Bool) : List Char := (if async then "Promise<void>" else "void").toList

/-- Whether a body speaks of returning. -/
def mentionsReturn (body : List Char) : Bool := occursIn "return".toList body

/-- A function with a return type. -/
def typedFunction (found : Regex.Match) : List Char :=
  if mentionsReturn (groupText found 4) then found.text
  else
    groupText found 1 ++ "function ".toList ++ groupText found 2 ++ ['('] ++ groupText found 3 ++
      "): ".toList ++ emptyReturnType (found.group? 1).isSome ++ [' ', '\x7b'] ++ groupText found 4 ++
        ['\x7d']

/-- An arrow function with a return type. -/
def typedArrow (found : Regex.Match) : List Char :=
  if mentionsReturn (groupText found 4) then found.text
  else
    "const ".toList ++ groupText found 1 ++ " = ".toList ++ groupText found 2 ++ ['('] ++
      groupText found 3 ++ "): ".toList ++ emptyReturnType (found.group? 2).isSome ++
        " => \x7b".toList ++ groupText found 4 ++ ['\x7d']

/-- A text with return types at its simple functions. -/
def addReturnTypes (text : List Char) : List Char :=
  simpleArrow.replaceAll typedArrow (simpleFunction.replaceAll typedFunction text)

/-- Whether a violation is about return types. -/
def isAboutReturnTypes (violation : Violation) : Bool :=
  mentions "return-type" violation.ruleName ||
    occursIn "return type".toList (lower violation.message.toList)

/-- The fixer that adds return types. -/
def returnTypeFixer : Fixer :=
  { kind := "ReturnTypeFixer"
    name := "Add TypeScript return types"
    ruleName := "return-type"
    description := "Adds explicit void return types to functions (simple cases only)"
    claims := fun violation _ => .ok (isAboutReturnTypes violation)
    fix := fun _ text =>
      if fetchingFunction.occursIn text then .failed manualFixMessage
      else .ofChange text (addReturnTypes text) }

end Conformance.Fix
