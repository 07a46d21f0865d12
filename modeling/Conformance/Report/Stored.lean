import Conformance.Audit.Result
import Conformance.Disk.Access
import Conformance.Json.Printer
import Conformance.Json.Reader
import Conformance.Json.Shown

/-!
# Stored results

A result as a document, and the result that a document holds. Numbers must be numbers or
texts of numbers, and severities must be known; the texts of a result and its tallies are
taken as they are.
-/

namespace Conformance

/-- A result as it is stored. -/
abbrev StoredResult := ResultOf Json Json

/-- An audit's result in the form that is stored. -/
def AuditResult.stored (result : AuditResult) : StoredResult :=
  result.map .string fun (count : Nat) => .integer count

/-- Why a value cannot stand where it does, though it is of the right kind. -/
inductive UnfitValue where
  | unknownSeverity (shown : List Char)
  | notInteger (text : List Char)
  | notNumber (text : List Char)
  | oversized (error : Number.OversizedInteger)
  /-- An undefined number has no whole part. -/
  | undefinedInteger
  /-- An entry of a tally is not a name with a count. -/
  | notPair (position length : Nat)
  deriving Repr, DecidableEq

/-- What is said about a value that cannot stand where it does. -/
def UnfitValue.message : UnfitValue → String
  | .unknownSeverity shown => String.ofList shown ++ " is not a valid Severity"
  | .notInteger text =>
    "invalid literal for int() with base 10: " ++ String.ofList ((Text.quoted text).take 200)
  | .notNumber text => "could not convert string to float: " ++ String.ofList (Text.quoted text)
  | .oversized error => error.message
  | .undefinedInteger => "cannot convert float NaN to integer"
  | .notPair position length =>
    "dictionary update sequence element #" ++ toString position ++ " has length " ++ toString length ++
      "; 2 is required"

/-- Why a document holds no result. -/
inductive UnfitDocument where
  | missingField
  | wrongType
  | badValue (reason : UnfitValue)
  /-- A number is beyond the numbers of its kind. -/
  | unbounded
  deriving Repr, DecidableEq

namespace StoredResult

/-- The name of a tally's entry in a document. -/
def nameText : Json → String
  | .string text => text
  | other => String.ofList other.document

/-- A tally as a value. -/
def tallyJson (counts : List (Json × Json)) : Json :=
  .object (counts.map fun (name, count) => (nameText name, count))

/-- A violation as a value. -/
def findingJson (finding : Finding Json) : Json :=
  .object [("rule_id", finding.ruleId), ("rule_name", finding.ruleName),
    ("file_path", finding.filePath), ("line", .integer finding.line),
    ("column", .integer finding.column), ("severity", .string finding.severity.name),
    ("message", finding.message), ("code_snippet", finding.codeSnippet),
    ("fix_suggestion", finding.fixSuggestion.getD .null)]

/-- The result of a file as a value. -/
def fileJson (file : FileResultOf Json) : Json :=
  .object [("file_path", file.filePath), ("line_count", .integer file.lineCount),
    ("compliance_score", .integer file.score), ("violations", .array (file.violations.map findingJson))]

/-- A result as a document. -/
def document (result : StoredResult) : Json :=
  .object [
    ("summary", .object [("total_files", .integer result.totalFiles),
      ("total_violations", .integer result.totalViolations),
      ("compliance_score", .integer result.score),
      ("violations_by_standard", tallyJson result.byStandard),
      ("violations_by_severity", tallyJson result.bySeverity),
      ("execution_time_ms", .number result.milliseconds)]),
    ("violations", .array (result.violations.map findingJson)),
    ("files", .array (result.files.map fileJson))]

/-- The fields of a value, which must be an object. -/
def fieldsOf : Json → Except UnfitDocument (List (String × Json))
  | .object fields => .ok fields
  | _ => .error .wrongType

/-- A field that must be there. -/
def field (name : String) (fields : List (String × Json)) : Except UnfitDocument Json :=
  match Json.lookup name fields with
  | some value => .ok value
  | none => .error .missingField

/-- A field, or what stands for a missing one. -/
def fieldOr (usual : Json) (name : String) (fields : List (String × Json)) : Json :=
  (Json.lookup name fields).getD usual

/-- The integer that a value stands for. Fractions are cut off. -/
def integerOf : Json → Except UnfitDocument Int
  | .bool value => .ok (if value then 1 else 0)
  | .integer value => .ok value
  | .number value =>
    match value, value.truncate? with
    | _, some whole => .ok whole
    | .infinite _, none => .error .unbounded
    | _, none => .error (.badValue .undefinedInteger)
  | .string text =>
    match Number.integer? text.toList, Number.oversized? text.toList with
    | some value, _ => .ok value
    | none, some error => .error (.badValue (.oversized error))
    | none, none => .error (.badValue (.notInteger text.toList))
  | _ => .error .wrongType

/-- The number that a value stands for. -/
def numberOf : Json → Except UnfitDocument Number.Binary64
  | .bool value => .ok (.ofInt (if value then 1 else 0))
  | .integer value =>
    match Number.Binary64.ofInt value with
    | .infinite _ => .error .unbounded
    | number => .ok number
  | .number value => .ok value
  | .string text =>
    match Number.binary? text.toList with
    | some value => .ok value
    | none => .error (.badValue (.notNumber text.toList))
  | _ => .error .wrongType

/-- The severity that a value names. -/
def severityOf (value : Json) : Except UnfitDocument Severity :=
  match value.string?.bind Severity.ofName? with
  | some severity => .ok severity
  | none => .error (.badValue (.unknownSeverity value.inCollection))

/-- The values of a list. What is empty and no list has no values either, and of anything
else the values are no objects. -/
def itemsOf : Json → Except UnfitDocument (List Json)
  | .array items => .ok items
  | .object fields => .ok (fields.map fun (name, _) => .string name)
  | .string text => .ok (text.toList.map fun c => .text [c])
  | _ => .error .wrongType

/-- The violation in a value. -/
def finding (value : Json) : Except UnfitDocument (Finding Json) := do
  let fields ← fieldsOf value
  let ruleId ← field "rule_id" fields
  let filePath ← field "file_path" fields
  let line ← integerOf (← field "line" fields)
  let column ← integerOf (← field "column" fields)
  let severity ← severityOf (← field "severity" fields)
  let message ← field "message" fields
  let fixSuggestion := match Json.lookup "fix_suggestion" fields with
    | some .null => none
    | found => found
  pure { ruleId, filePath, line, column, severity, message, fixSuggestion
         codeSnippet := fieldOr (.string "") "code_snippet" fields
         ruleName := fieldOr (.string "") "rule_name" fields }

/-- The violations in a field. -/
def findings (fields : List (String × Json)) : Except UnfitDocument (List (Finding Json)) := do
  (← itemsOf (fieldOr (.array []) "violations" fields)).mapM finding

/-- The result of a file in a value. -/
def file (value : Json) : Except UnfitDocument (FileResultOf Json) := do
  let fields ← fieldsOf value
  let filePath ← field "file_path" fields
  let violations ← findings fields
  let lineCount ← integerOf (← field "line_count" fields)
  let score ← integerOf (← field "compliance_score" fields)
  pure ⟨filePath, violations, lineCount, score⟩

/-- Set the count of a name. A new name goes to the end, a present one keeps its place. -/
def setCount (name count : Json) : List (Json × Json) → List (Json × Json)
  | [] => [(name, count)]
  | (other, old) :: rest =>
    if other == name then (other, count) :: rest else (other, old) :: setCount name count rest

/-- A name and a count in the entry at a place of a list. -/
def pairOf (position : Nat) (entry : Json) : Except UnfitDocument (Json × Json) :=
  match itemsOf entry with
  | .error error => .error error
  | .ok [name, count] => if name.isKey then .ok (name, count) else .error .wrongType
  | .ok items => .error (.badValue (.notPair position items.length))

/-- The tally in the entries from a place on, added to those before. -/
def tallyFrom : (position : Nat) → List (Json × Json) → List Json →
    Except UnfitDocument (List (Json × Json))
  | _, counts, [] => .ok counts
  | position, counts, entry :: rest =>
    match pairOf position entry with
    | .error error => .error error
    | .ok (name, count) => tallyFrom (position + 1) (setCount name count counts) rest

/-- The tally in a value: an object, or a list of names with their counts. -/
def tally : Json → Except UnfitDocument (List (Json × Json))
  | .object fields => .ok (fields.map fun (name, count) => (.string name, count))
  | value =>
    match itemsOf value with
    | .error error => .error error
    | .ok entries => tallyFrom 0 [] entries

/-- The result in a document. -/
def ofDocument (value : Json) : Except UnfitDocument StoredResult := do
  let fields ← fieldsOf value
  let summary ← field "summary" fields
  let summaryFields ← fieldsOf summary
  let totalFiles ← integerOf (← field "total_files" summaryFields)
  let totalViolations ← integerOf (← field "total_violations" summaryFields)
  let score ← integerOf (← field "compliance_score" summaryFields)
  let byStandard ← tally (fieldOr (.object []) "violations_by_standard" summaryFields)
  let bySeverity ← tally (fieldOr (.object []) "violations_by_severity" summaryFields)
  let violations ← findings fields
  let files ← (← itemsOf (fieldOr (.array []) "files" fields)).mapM file
  let milliseconds ← numberOf (fieldOr (.number .zero) "execution_time_ms" summaryFields)
  pure ⟨totalFiles, totalViolations, score, byStandard, bySeverity, violations, files, milliseconds⟩

/-- The stored form of a result. -/
def text (result : StoredResult) : List Char := result.document.document

end StoredResult

/-- Why a result cannot be stored. -/
inductive SaveError where
  | access (error : DiskError)
  | oversized (error : Number.OversizedInteger)
  deriving Repr, DecidableEq

/-- Store a result in a file, with the directories above, which are made first. -/
def StoredResult.save (result : StoredResult) (disk : Disk) (path : Path) : Except SaveError Disk :=
  match disk.makeDirectories path.parent with
  | .error error => .error (.access error)
  | .ok disk =>
    match result.document.unwritable? with
    | some error => .error (.oversized error)
    | none => (disk.write path (Text.encode (result.text ++ ['\n']))).mapError .access

/-- Why no result can be loaded. -/
inductive LoadError where
  | access (error : DiskError)
  | encoding (error : Text.Utf8Error)
  | malformed
  | oversized (error : Number.OversizedInteger)
  | tooDeep
  | unfit (reason : UnfitDocument)
  deriving Repr, DecidableEq

/-- Whether what cannot be loaded is said to be no result. The other errors speak for
themselves. -/
def LoadError.isNoResult : LoadError → Bool
  | .malformed => true
  | .unfit .missingField => true
  | .unfit .wrongType => true
  | _ => false

/-- What is said about a file that holds no result. The detail tells the cause. -/
def LoadError.noResultMessage (path : Path) (detail : String) : String :=
  "Not an audit result: " ++ path.text ++ " (" ++ detail ++ ")"

/-- The result in the text of a document. -/
def StoredResult.ofText (text : List Char) : Except LoadError StoredResult :=
  match Json.read text with
  | .error .malformed => .error .malformed
  | .error (.oversized error) => .error (.oversized error)
  | .error .tooDeep => .error .tooDeep
  | .ok document =>
    match StoredResult.ofDocument document with
    | .error reason => .error (.unfit reason)
    | .ok result => .ok result

/-- The result in a file. -/
def StoredResult.load (disk : Disk) (path : Path) : Except LoadError StoredResult :=
  match disk.readText path with
  | .error (.access error) => .error (.access error)
  | .error (.encoding error) => .error (.encoding error)
  | .ok text => StoredResult.ofText text

end Conformance
