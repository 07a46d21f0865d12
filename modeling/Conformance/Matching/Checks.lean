import Conformance.Disk.Path
import Conformance.Matching.Lines
import Conformance.Syntax.Source
import Conformance.Text.Search

/-!
# The checks of the standards

Three standards have checks that look at the facts of a source. Which checks a rule asks
for is said by words in its name; a rule may ask for several.
-/

namespace Conformance.Matching

open Syntax Text

/-- Default exports, an anonymous one with a word about it. -/
def checkDefaultExports (rule : Rule) (file : SourceFile) (filePath : String) : List Violation :=
  (file.facts.exports.filter (·.kind == .default)).map fun fact =>
    let message := if fact.anonymous then "Anonymous default export - " ++ rule.message else rule.message
    report rule filePath fact.line fact.column message
      (some "Use named export instead: export function ComponentName()") []

/-- Parameters of type `any`. -/
def checkAnyParameters (rule : Rule) (file : SourceFile) (filePath : String) : List Violation :=
  (file.facts.anyTypes.filter (·.context == .parameter)).map fun fact =>
    report rule filePath fact.line fact.column
      ("Parameter \"" ++ fact.name ++ "\" is typed as any - " ++ rule.message) none []

/-- Comments that switch the type checker off. -/
def checkSuppressions (rule : Rule) (file : SourceFile) (filePath : String) : List Violation :=
  file.facts.suppressions.map fun fact =>
    report rule filePath fact.line fact.column
      ("@" ++ fact.directive ++ " suppresses type checking - " ++ rule.message) none []

/-- Messages of the compiler. -/
def checkTypeErrors (rule : Rule) (file : SourceFile) (filePath : String) : List Violation :=
  file.typeErrors.map fun diagnostic =>
    report rule filePath diagnostic.line diagnostic.column
      (diagnostic.code ++ ": " ++ diagnostic.message) none []

/-- The checks of the language standard. -/
def checkTypescript (rule : Rule) (file : SourceFile) (filePath : String) : List Violation :=
  (if mentions "default-export" rule.name then checkDefaultExports rule file filePath else []) ++
  (if mentions "any-type" rule.name then checkAnyParameters rule file filePath else []) ++
  (if mentions "ts-ignore" rule.name then checkSuppressions rule file filePath else []) ++
  (if mentions "type-error" rule.name then checkTypeErrors rule file filePath else [])

/-- Components that are classes. -/
def checkClassComponents (rule : Rule) (file : SourceFile) (filePath : String) : List Violation :=
  file.facts.classComponents.map fun fact =>
    report rule filePath fact.line 1 ("Class component \"" ++ fact.name ++ "\" - " ++ rule.message)
      (some "Convert to functional component with hooks") []

/-- Hooks in a source without the client directive, reported once by the first hook. -/
def checkHookDirective (rule : Rule) (file : SourceFile) (filePath : String) : List Violation :=
  match file.facts.hooks with
  | first :: _ =>
    if file.facts.usesClient then []
    else
      [report rule filePath 1 1
        ("Component uses hooks (" ++ first.name ++ ") but missing \"use client\" directive")
        (some "Add \"use client\" at the top of the file") []]
  | [] => []

/-- Local state in client components that do not fetch from the server library. -/
def checkServerData (rule : Rule) (file : SourceFile) (filePath : String) : List Violation :=
  if file.facts.usesClient && !file.facts.importsModule "convex/react" then
    (file.facts.hooks.filter (·.name == "useState")).map fun hook =>
      report rule filePath hook.line hook.column
        "Consider using Convex useQuery for server data instead of useState"
        (some "Replace useState with useQuery from convex/react") []
  else []

/-- The checks of the component standard. -/
def checkReact (rule : Rule) (file : SourceFile) (filePath : String) : List Violation :=
  (if mentions "class-component" rule.name then checkClassComponents rule file filePath else []) ++
  (if mentions "use-client" rule.name || mentions "hook" rule.name then
    checkHookDirective rule file filePath else []) ++
  (if mentions "usestate" rule.name || mentions "server-data" rule.name then
    checkServerData rule file filePath else [])

/-- Hooks in a source without any directive. -/
def checkDirective (rule : Rule) (file : SourceFile) (filePath : String) : List Violation :=
  if !file.facts.hooks.isEmpty && !file.facts.usesClient && !file.facts.usesServer then
    [report rule filePath 1 1 "Missing \"use client\" directive - this component uses hooks"
      (some "Add \"use client\"; at the top of the file") []]
  else []

/-- Pages that are client components. -/
def checkServerPage (rule : Rule) (file : SourceFile) (filePath : String) : List Violation :=
  if (Path.ofString filePath).name == "page.tsx" && file.facts.usesClient then
    [report rule filePath 1 1 ""
      (some "Remove \"use client\" and move client logic to separate components") []]
  else []

/-- The checks of the framework standard. -/
def checkNextjs (rule : Rule) (file : SourceFile) (filePath : String) : List Violation :=
  (if mentions "use-client" rule.name || mentions "directive" rule.name then
    checkDirective rule file filePath else []) ++
  (if mentions "server-component" rule.name then checkServerPage rule file filePath else [])

/-- The checks of a rule's standard. -/
def checkStandard (rule : Rule) (file : SourceFile) (filePath : String) : List Violation :=
  match rule.standard with
  | .typescript => checkTypescript rule file filePath
  | .react => checkReact rule file filePath
  | .nextjs => checkNextjs rule file filePath
  | _ => []

end Conformance.Matching
