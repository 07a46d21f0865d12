import Conformance.Fix.Fixer
import Conformance.Pattern.Reader
import Conformance.Text.Search

/-!
# Naming default exports

A default export of a named function or class loses the word that makes it the default
one. A default export of a name alone is removed, and the declaration of that name is
exported in its place.
-/

namespace Conformance.Fix

open Text

/-- The default export of a named declaration. -/
def inlineDefault : Pattern :=
  .ofText "export\\s+default\\s+((?:async\\s+)?function|class)\\s+(\\w+)"

/-- The default export of a name, with the end of its line. -/
def trailingDefault : Pattern :=
  .ofText "^export\\s+default\\s+(\\w+)[ \\t]*;?[ \\t]*(?:\\n|$)" ⟨false, true⟩

/-- The declaration of a name as a variable. A name has word characters only, which stand
for themselves. -/
def variableDeclaration (name : String) : Pattern :=
  .ofText ("^([ \\t]*)(const|let|var)\\s+(" ++ name ++ "\\s*[=:])") ⟨false, true⟩

/-- The declaration of a name as a function. -/
def functionDeclaration (name : String) : Pattern :=
  .ofText ("^([ \\t]*)((?:async\\s+)?function\\s+" ++ name ++ "\\s*[(<])") ⟨false, true⟩

/-- The text of a group, empty if it took no part. -/
def groupText (found : Regex.Match) (index : Nat) : List Char := (found.group? index).getD []

/-- Every default export of a named declaration as a named export. -/
def nameInline (text : List Char) : List Char :=
  inlineDefault.replaceAll
    (fun found => "export ".toList ++ groupText found 1 ++ [' '] ++ groupText found 2) text

/-- A text without the default export that was found in it. -/
def withoutMatch (text : List Char) (found : Regex.Match) : List Char :=
  text.take found.start ++ text.drop found.stop

/-- The first default export of a name moved to the declaration of that name, if there
is one. -/
def nameTrailing (text : List Char) : List Char :=
  match trailingDefault.search text with
  | none => text
  | some found =>
    let name := String.ofList (groupText found 1)
    let rest := withoutMatch text found
    if (variableDeclaration name).occursIn rest then
      (variableDeclaration name).replaceFirst (fun declared =>
        groupText declared 1 ++ "export ".toList ++ groupText declared 2 ++ [' '] ++
          groupText declared 3) rest
    else if (functionDeclaration name).occursIn rest then
      (functionDeclaration name).replaceFirst (fun declared =>
        groupText declared 1 ++ "export ".toList ++ groupText declared 2) rest
    else text

/-- A text with named exports in place of default ones. -/
def nameExports (text : List Char) : List Char := nameTrailing (nameInline text)

/-- Whether a violation is about exports. -/
def isAboutExports (violation : Violation) : Bool :=
  mentions "export" violation.ruleName || occursIn "export".toList (lower violation.message.toList)

/-- The fixer that names default exports. -/
def exportFixer : Fixer :=
  { kind := "ExportStyleFixer"
    name := "Convert default to named exports"
    ruleName := "default-export"
    description := "Converts default exports to named exports"
    claims := fun violation text => .ok (isAboutExports violation && nameExports text != text)
    fix := fun _ text => .ofChange text (nameExports text) }

end Conformance.Fix
