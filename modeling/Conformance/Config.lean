import Conformance.Audit.Scan
import Conformance.Compiler.Check
import Conformance.Number.Reading
import Conformance.Text.LetterCase
import Conformance.Yaml.Document

/-!
# The configuration of a project

The settings of one project, from a mapping of names to values. A setting that is missing
or null has its default, and an unknown name means nothing. A project without a readable
settings file has the defaults for everything.
-/

namespace Conformance

open Yaml

/-- The settings of a project. -/
structure Config where
  standardsDirectory : String
  includeDirectories : List String
  excludeDirectories : List String
  extensions : List String
  /-- The standards to apply; an empty list stands for all. -/
  standards : List Standard
  minSeverity : Option Severity
  maxViolations : Option Int
  typeCheck : Bool
  typeCheckCommand : String
  typeCheckTimeout : Int
  backupDirectory : String
  reportDirectory : String
  deriving Repr, DecidableEq

/-- Why settings are refused. -/
inductive ConfigError where
  | unknownSeverity (name : List Char)
  | unknownStandard (name : List Char)
  | notList (setting : String)
  | notInteger (setting : String)
  | notPositive (setting : String)
  deriving Repr, DecidableEq

/-- What is said about refused settings. -/
def ConfigError.message : ConfigError → String
  | .unknownSeverity name =>
    "Unknown severity '" ++ String.ofList name ++ "' (expected one of: " ++
      ", ".intercalate (Severity.all.map (·.name)) ++ ")"
  | .unknownStandard name =>
    "Unknown standard '" ++ String.ofList name ++ "' (expected one of: " ++
      ", ".intercalate (Standard.all.map (·.name)) ++ ")"
  | .notList setting => "'" ++ setting ++ "' must be a list"
  | .notInteger setting => "'" ++ setting ++ "' must be an integer"
  | .notPositive setting => "'" ++ setting ++ "' must be positive"

/-- Why there is no configuration. -/
inductive ConfigFailure where
  | refused (error : ConfigError)
  /-- A number is beyond all integers. -/
  | unbounded
  /-- A value that should be a text cannot be shown. -/
  | unshowable (reason : Unshowable)
  /-- The settings are no mapping. -/
  | notMapping
  | undecodable (error : Text.Utf8Error)
  /-- The document holds a value that cannot be made. -/
  | value (error : YamlError)
  deriving Repr, DecidableEq

namespace Config

/-- The settings of a project that says nothing. -/
def default : Config :=
  { standardsDirectory := ".factory/standards"
    includeDirectories := Audit.defaultIncludeDirectories
    excludeDirectories := Audit.defaultExcludeDirectories
    extensions := Audit.defaultExtensions
    standards := []
    minSeverity := none
    maxViolations := none
    typeCheck := false
    typeCheckCommand := Compiler.defaultCommand
    typeCheckTimeout := Compiler.defaultTimeout
    backupDirectory := ".backup"
    reportDirectory := ".audit-reports" }

/-- What is scanned. -/
def scanConfig (config : Config) : Audit.ScanConfig :=
  ⟨config.includeDirectories, config.excludeDirectories, config.extensions⟩

/-- How the compiler is called. -/
def command (config : Config) : Compiler.Command := ⟨config.typeCheckCommand, config.typeCheckTimeout⟩

/-- A path of the settings, taken from the root of the project. -/
def resolve (root : Path) (relative : String) : Path := root.join (.ofString relative)

/-- The text of a value. -/
def textOf (value : Value) : Except ConfigFailure (List Char) := value.text?.mapError .unshowable

/-- The severity of a name in any case. -/
def severity (value : Value) : Except ConfigFailure Severity := do
  let name ← textOf value
  match Severity.ofName? (String.ofList (Text.lower name)) with
  | some severity => .ok severity
  | none => .error (.refused (.unknownSeverity name))

/-- The standard of a name in any case. -/
def standard (name : List Char) : Except ConfigError Standard :=
  match Standard.ofName? (String.ofList (Text.lower name)) with
  | some standard => .ok standard
  | none => .error (.unknownStandard name)

/-- The value of a setting, unless it is missing or null. -/
def setting? (fields : List (Value × Value)) (name : String) : Option Value :=
  match Value.field? name fields with
  | some .null => none
  | found => found

/-- The text of a setting. -/
def textSetting (fields : List (Value × Value)) (name usual : String) :
    Except ConfigFailure String :=
  match setting? fields name with
  | some value => (textOf value).map String.ofList
  | none => .ok usual

/-- The texts of a setting; a single text is a list of one. -/
def listSetting (fields : List (Value × Value)) (name : String) :
    Except ConfigFailure (Option (List (List Char))) :=
  match setting? fields name with
  | none => .ok none
  | some (.text text) => .ok (some [text])
  | some (.list items) => (items.mapM textOf).map some
  | some _ => .error (.refused (.notList name))

/-- An ending with its point. -/
def withPoint (text : List Char) : List Char :=
  match text with
  | '.' :: _ => text
  | _ => '.' :: text

/-- The integer in a text. -/
def integerOfText (name : String) (text : List Char) : Except ConfigFailure Int :=
  match Number.integer? text with
  | some value => .ok value
  | none => .error (.refused (.notInteger name))

/-- The integer that a value stands for. Fractions are cut off. -/
def integerOf (name : String) : Value → Except ConfigFailure Int
  | .bool value => .ok (if value then 1 else 0)
  | .integer value => .ok value
  | .number value =>
    match value, value.truncate? with
    | _, some whole => .ok whole
    | .infinite _, none => .error .unbounded
    | _, none => .error (.refused (.notInteger name))
  | .text text => integerOfText name text
  | .bytes value =>
    if value.all (· < 0x80) then integerOfText name (value.map fun byte => Char.ofNat byte.toNat)
    else .error (.refused (.notInteger name))
  | _ => .error (.refused (.notInteger name))

/-- The positive integer of a setting. -/
def positiveSetting (fields : List (Value × Value)) (name : String) :
    Except ConfigFailure (Option Int) :=
  match setting? fields name with
  | none => .ok none
  | some value => do
    let number ← integerOf name value
    if number ≤ 0 then .error (.refused (.notPositive name)) else pure (some number)

/-- The standards of a setting; a missing one names none. -/
def standardsSetting (fields : List (Value × Value)) (name : String) :
    Except ConfigFailure (List Standard) := do
  let names ← listSetting fields name
  (names.getD []).mapM fun name => (standard name).mapError .refused

/-- The severity of a setting. -/
def severitySetting (fields : List (Value × Value)) (name : String) :
    Except ConfigFailure (Option Severity) :=
  match setting? fields name with
  | none => .ok none
  | some value => (severity value).map some

/-- The configuration in a mapping. -/
def ofFields (fields : List (Value × Value)) : Except ConfigFailure Config := do
  let strings (found : Option (List (List Char))) (usual : List String) : List String :=
    (found.map fun texts => texts.map String.ofList).getD usual
  let standardsDirectory ← textSetting fields "standards_dir" default.standardsDirectory
  let typeCheckCommand ← textSetting fields "typecheck_command" default.typeCheckCommand
  let backupDirectory ← textSetting fields "backup_dir" default.backupDirectory
  let reportDirectory ← textSetting fields "report_dir" default.reportDirectory
  let includeDirectories ← listSetting fields "include_dirs"
  let excludeDirectories ← listSetting fields "exclude_dirs"
  let extensions ← listSetting fields "extensions"
  let standards ← standardsSetting fields "standards"
  let minSeverity ← severitySetting fields "min_severity"
  let maxViolations ← positiveSetting fields "max_violations"
  let timeout ← positiveSetting fields "typecheck_timeout"
  pure {
    standardsDirectory := standardsDirectory
    includeDirectories := strings includeDirectories default.includeDirectories
    excludeDirectories := strings excludeDirectories default.excludeDirectories
    extensions := strings (extensions.map fun texts => texts.map withPoint) default.extensions
    standards := standards
    minSeverity := minSeverity
    maxViolations := maxViolations
    typeCheck := (setting? fields "type_check").any Value.isTrue
    typeCheckCommand := typeCheckCommand
    typeCheckTimeout := timeout.getD default.typeCheckTimeout
    backupDirectory := backupDirectory
    reportDirectory := reportDirectory }

/-- The configuration in a value, which must be a mapping. -/
def ofValue : Value → Except ConfigFailure Config
  | .mapping fields => ofFields fields
  | _ => .error .notMapping

/-- The settings file of a project. -/
def filePath (root : Path) : Path := (root.child ".audit").child "config.yml"

/-- The configuration in the text of a settings file. A malformed document and one that
is no mapping stand for the defaults. -/
def ofDocument (text : List Char) : Except ConfigFailure Config :=
  match Yaml.load text with
  | .error .malformed => .ok default
  | .error error => .error (.value error)
  | .ok (.mapping fields) => ofFields fields
  | .ok _ => .ok default

/-- The configuration of a project. -/
def load (disk : Disk) (root : Path) : Except ConfigFailure Config :=
  if disk.isFile (filePath root) then
    match disk.readText (filePath root) with
    | .error (.access _) => .ok default
    | .error (.encoding error) => .error (.undecodable error)
    | .ok text => ofDocument text
  else .ok default

/-- Settings that are given elsewhere and count more. -/
structure Overrides where
  standardsDirectory : Option String := none
  includeDirectories : Option (List String) := none
  excludeDirectories : Option (List String) := none
  extensions : Option (List String) := none
  standards : Option (List Standard) := none
  minSeverity : Option Severity := none
  maxViolations : Option Int := none
  typeCheck : Option Bool := none
  typeCheckCommand : Option String := none
  typeCheckTimeout : Option Int := none
  backupDirectory : Option String := none
  reportDirectory : Option String := none

/-- A configuration with other settings put over it. -/
def override (config : Config) (overrides : Overrides) : Config :=
  { standardsDirectory := overrides.standardsDirectory.getD config.standardsDirectory
    includeDirectories := overrides.includeDirectories.getD config.includeDirectories
    excludeDirectories := overrides.excludeDirectories.getD config.excludeDirectories
    extensions := overrides.extensions.getD config.extensions
    standards := overrides.standards.getD config.standards
    minSeverity := overrides.minSeverity.orElse fun _ => config.minSeverity
    maxViolations := overrides.maxViolations.orElse fun _ => config.maxViolations
    typeCheck := overrides.typeCheck.getD config.typeCheck
    typeCheckCommand := overrides.typeCheckCommand.getD config.typeCheckCommand
    typeCheckTimeout := overrides.typeCheckTimeout.getD config.typeCheckTimeout
    backupDirectory := overrides.backupDirectory.getD config.backupDirectory
    reportDirectory := overrides.reportDirectory.getD config.reportDirectory }

end Config

end Conformance
