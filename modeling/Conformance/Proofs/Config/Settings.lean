import Conformance.Config
import Conformance.Proofs.Failing

/-!
# Settings one by one

A mapping is read setting by setting in a fixed order, and the first setting with a fault decides what
becomes of the whole. What is wrong with a setting is refused, with two exceptions: a limit that is
infinite, and a value that should be shown and cannot be. Settings that are accepted are lawful, and
fields with other names have no part in it.
-/

namespace Conformance

open Number Yaml

/-- A value stands in another one, inside so many collections. -/
inductive Yaml.Value.Holds : (depth : Nat) → (outer inner : Value) → Prop where
  | self (value : Value) : Holds 0 value value
  | part {depth : Nat} {outer part inner : Value} {parts : List Value} (opened : outer.parts? = some parts)
      (member : part ∈ parts) (inside : Holds depth part inner) : Holds (depth + 1) outer inner

/-- A value can be shown inside so many collections: it is not nested deeper, and no integer in it is
too long. -/
def Yaml.Value.ShowableIn (room : Nat) (value : Value) : Prop :=
  ∀ depth inner, Value.Holds depth value inner → (inner.parts?.isSome = true → depth < room) ∧
    ∀ number, inner = .integer number → (digits number.natAbs).length ≤ integerTextLimit

/-- A value can be shown. -/
def Yaml.Value.Showable (value : Value) : Prop := value.ShowableIn nestingLimit

/-- A collection can be shown if it may be opened and its parts can be shown in it. -/
theorem Yaml.Value.showableIn_collection {value : Value} {parts : List Value}
    (opened : value.parts? = some parts) (room : Nat) :
    value.ShowableIn (room + 1) ↔ ∀ part ∈ parts, part.ShowableIn room := by
  constructor
  · intro showable part member depth inner inside
    obtain ⟨deep, short⟩ := showable (depth + 1) inner (.part opened member inside)
    exact ⟨fun collection => Nat.lt_of_succ_lt_succ (deep collection), short⟩
  · rintro showable depth inner (_ | ⟨again, member, inside⟩)
    · refine ⟨fun _ => Nat.succ_pos room, fun number same => ?_⟩
      rw [same] at opened
      cases opened
    · obtain rfl := Option.some.inj (opened.symm.trans again)
      obtain ⟨deep, short⟩ := showable _ member _ inner inside
      exact ⟨fun collection => Nat.succ_lt_succ (deep collection), short⟩

/-- What is no collection can be shown unless it is an integer that is too long. -/
theorem Yaml.Value.showableIn_scalar {value : Value} (closed : value.parts? = none) (room : Nat) :
    value.ShowableIn room ↔
      ∀ number, value = .integer number → (digits number.natAbs).length ≤ integerTextLimit := by
  constructor
  · intro showable
    exact (showable 0 value (.self value)).2
  · rintro short depth inner (_ | ⟨opened, _, _⟩)
    · exact ⟨fun opened => by simp [closed] at opened, short⟩
    · rw [closed] at opened
      cases opened

/-- Nothing keeps a value from being shown exactly if it can be shown. The induction is on the number of
collections that may be opened. -/
theorem Yaml.Value.unshowable?_eq_none_iff (room : Nat) (value : Value) :
    unshowable? room value = none ↔ value.ShowableIn room := by
  have scalar (room : Nat) {value : Value} (closed : value.parts? = none) :
      unshowable? room value = none ↔ value.ShowableIn room := by
    rw [showableIn_scalar closed]
    cases value <;> cases room <;> simp_all [unshowable?, parts?, unwritable?]
  induction room generalizing value with
  | zero =>
    cases opened : value.parts? with
    | none => exact scalar 0 opened
    | some parts =>
      refine iff_of_false ?_ fun showable => ?_
      · cases value <;> simp_all [unshowable?, parts?]
      · exact absurd ((showable 0 value (.self value)).1 (by simp [opened])) (Nat.lt_irrefl 0)
  | succ room inductionHypothesis =>
    cases opened : value.parts? with
    | none => exact scalar (room + 1) opened
    | some parts =>
      have inside : unshowable? (room + 1) value = parts.findSome? (unshowable? room) := by
        cases value <;> cases opened <;> rfl
      rw [inside, showableIn_collection opened, List.findSome?_eq_none_iff]
      exact forall₂_congr fun part _ => inductionHypothesis part

/-- A failure that is the refusal of a setting. -/
def ConfigFailure.IsRefusal (failure : ConfigFailure) : Prop := ∃ error, failure = .refused error

namespace Config

/-- What is asked of the value of a setting. -/
inductive Demand where
  | text
  | texts
  | standards
  | severity
  | limit
  | flag

/-- A setting of a project. -/
inductive Setting where
  | standardsDirectory
  | typeCheckCommand
  | backupDirectory
  | reportDirectory
  | includeDirectories
  | excludeDirectories
  | extensions
  | standards
  | minSeverity
  | maxViolations
  | typeCheckTimeout
  | typeCheck

namespace Setting

/-- The settings in the order in which they are read. -/
def all : List Setting := [.standardsDirectory, .typeCheckCommand, .backupDirectory, .reportDirectory,
  .includeDirectories, .excludeDirectories, .extensions, .standards, .minSeverity, .maxViolations,
  .typeCheckTimeout, .typeCheck]

/-- The name of a setting in a mapping. -/
def name : Setting → String
  | standardsDirectory => "standards_dir"
  | typeCheckCommand => "typecheck_command"
  | backupDirectory => "backup_dir"
  | reportDirectory => "report_dir"
  | includeDirectories => "include_dirs"
  | excludeDirectories => "exclude_dirs"
  | extensions => "extensions"
  | standards => "standards"
  | minSeverity => "min_severity"
  | maxViolations => "max_violations"
  | typeCheckTimeout => "typecheck_timeout"
  | typeCheck => "type_check"

/-- What is asked of the value of a setting. -/
def demand : Setting → Demand
  | standardsDirectory | typeCheckCommand | backupDirectory | reportDirectory => .text
  | includeDirectories | excludeDirectories | extensions => .texts
  | standards => .standards
  | minSeverity => .severity
  | maxViolations | typeCheckTimeout => .limit
  | typeCheck => .flag

/-- Two configurations have the same setting. -/
def Same (config other : Config) : Setting → Prop
  | standardsDirectory => config.standardsDirectory = other.standardsDirectory
  | typeCheckCommand => config.typeCheckCommand = other.typeCheckCommand
  | backupDirectory => config.backupDirectory = other.backupDirectory
  | reportDirectory => config.reportDirectory = other.reportDirectory
  | includeDirectories => config.includeDirectories = other.includeDirectories
  | excludeDirectories => config.excludeDirectories = other.excludeDirectories
  | extensions => config.extensions = other.extensions
  | standards => config.standards = other.standards
  | minSeverity => config.minSeverity = other.minSeverity
  | maxViolations => config.maxViolations = other.maxViolations
  | typeCheckTimeout => config.typeCheckTimeout = other.typeCheckTimeout
  | typeCheck => config.typeCheck = other.typeCheck

variable {fields : List (Value × Value)}

/-- The value that is given to a setting. -/
def given (fields : List (Value × Value)) (setting : Setting) : Option Value :=
  setting? fields setting.name

/-- What is wrong with a setting. -/
def fault? (fields : List (Value × Value)) (setting : Setting) : Option ConfigFailure :=
  match setting.demand with
  | .text => Conformance.fault? (textSetting fields setting.name "")
  | .texts => Conformance.fault? (listSetting fields setting.name)
  | .standards => Conformance.fault? (standardsSetting fields setting.name)
  | .severity => Conformance.fault? (severitySetting fields setting.name)
  | .limit => Conformance.fault? (positiveSetting fields setting.name)
  | .flag => none

/-- A setting is refused. -/
def Refused (fields : List (Value × Value)) (setting : Setting) : Prop :=
  ∃ error, setting.fault? fields = some (.refused error)

/-- A setting is of no use and not refused either: a value that should be shown cannot be, or a limit is
infinite. -/
def Unusable (fields : List (Value × Value)) (setting : Setting) : Prop :=
  match setting.demand with
  | .text | .severity => ∃ value, setting.given fields = some value ∧ ¬ value.Showable
  | .texts | .standards =>
    ∃ items, setting.given fields = some (.list items) ∧ ∃ item ∈ items, ¬ item.Showable
  | .limit => ∃ negative, setting.given fields = some (.number (.infinite negative))
  | .flag => False

end Setting

variable {fields : List (Value × Value)} {name : String}

/-- What is wrong with a text setting does not depend on what is usual. -/
theorem fault?_textSetting (usual : String) :
    fault? (textSetting fields name usual) = fault? (textSetting fields name "") := by
  unfold textSetting
  split <;> simp

/-- What is wrong with settings is what is wrong with the first setting that has a fault. -/
theorem fault?_ofFields (fields : List (Value × Value)) :
    fault? (ofFields fields) = Setting.all.findSome? (Setting.fault? fields) := by
  have steps : fault? (ofFields fields) = _ :=
    fault?_bind fun _ _ => fault?_bind fun _ _ => fault?_bind fun _ _ => fault?_bind fun _ _ =>
      fault?_bind fun _ _ => fault?_bind fun _ _ => fault?_bind fun _ _ => fault?_bind fun _ _ =>
        fault?_bind fun _ _ => fault?_bind fun _ _ => fault?_bind fun _ _ => fault?_ok _
  rw [steps]
  simp only [fault?_textSetting, Setting.all, findSome?_cons_or, List.findSome?_nil]
  rfl

/-- A name is known or refused. -/
theorem refuses_standard (name : List Char) :
    FailsOnly ConfigFailure.IsRefusal ((standard name).mapError .refused) :=
  (failsOnly_mapError_iff _ _ _).mpr fun error _ => ⟨error, rfl⟩

/-- A value that cannot be shown is not refused. -/
theorem textOf_not_refused (value : Value) :
    FailsOnly (fun failure => ¬ failure.IsRefusal) (textOf value) := by
  refine (failsOnly_mapError_iff _ _ _).mpr ?_
  rintro reason - ⟨error, ⟨⟩⟩

/-- A text is given exactly if the value can be shown. -/
theorem succeeds_textOf_iff (value : Value) : Succeeds (textOf value) ↔ value.Showable := by
  rw [Value.Showable, ← Value.unshowable?_eq_none_iff, textOf, Value.text?, succeeds_mapError_iff]
  cases Value.unshowable? nestingLimit value <;> simp

/-- A value is shown or refused exactly if it can be shown. -/
theorem refuses_textOf_iff (value : Value) :
    FailsOnly ConfigFailure.IsRefusal (textOf value) ↔ value.Showable :=
  (failsOnly_iff_succeeds (textOf_not_refused value)).trans (succeeds_textOf_iff value)

/-- Values are shown or refused exactly if all of them can be shown. -/
theorem refuses_texts_iff (values : List Value) :
    FailsOnly ConfigFailure.IsRefusal (values.mapM textOf) ↔ ∀ value ∈ values, value.Showable := by
  rw [failsOnly_iff_succeeds (FailsOnly.mapM textOf_not_refused values), succeeds_mapM_iff]
  exact forall₂_congr fun value _ => succeeds_textOf_iff value

/-- A severity is known or refused exactly if its name can be shown. -/
theorem refuses_severity_iff (value : Value) :
    FailsOnly ConfigFailure.IsRefusal (severity value) ↔ value.Showable := by
  rw [severity, failsOnly_bind_iff, refuses_textOf_iff]
  refine and_iff_left fun name _ => ?_
  split
  · exact failsOnly_ok _ _
  · exact (failsOnly_error_iff _ _).mpr ⟨_, rfl⟩

/-- The integer in a text is read or refused. -/
theorem refuses_integerOfText (name : String) (text : List Char) :
    FailsOnly ConfigFailure.IsRefusal (integerOfText name text) := by
  unfold integerOfText
  split
  · exact failsOnly_ok _ _
  · exact (failsOnly_error_iff _ _).mpr ⟨_, rfl⟩

/-- An infinite number is no integer, and it is not refused either. -/
theorem integerOf_infinite (name : String) (negative : Bool) :
    integerOf name (.number (.infinite negative)) = .error .unbounded := rfl

/-- An integer is read or refused, unless it is infinite. -/
theorem refuses_integerOf_iff (name : String) (value : Value) :
    FailsOnly ConfigFailure.IsRefusal (integerOf name value) ↔
      ¬ ∃ negative, value = .number (.infinite negative) := by
  by_cases infinite : ∃ negative, value = .number (.infinite negative)
  · obtain ⟨negative, rfl⟩ := infinite
    simp [integerOf_infinite, ConfigFailure.IsRefusal]
  refine iff_of_true ?_ infinite
  have refused (error : ConfigError) :
      FailsOnly ConfigFailure.IsRefusal (.error (.refused error) : Except ConfigFailure Int) :=
    (failsOnly_error_iff _ _).mpr ⟨error, rfl⟩
  unfold integerOf
  split
  · exact failsOnly_ok _ _
  · exact failsOnly_ok _ _
  · split
    · exact failsOnly_ok _ _
    · next negative _ => exact absurd ⟨negative, rfl⟩ infinite
    · exact refused _
  · exact refuses_integerOfText _ _
  · split
    · exact refuses_integerOfText _ _
    · exact refused _
  · exact refused _

/-- A text setting is taken or refused exactly if its value can be shown. -/
theorem refuses_textSetting_iff (usual : String) :
    FailsOnly ConfigFailure.IsRefusal (textSetting fields name usual) ↔
      ∀ value, setting? fields name = some value → value.Showable := by
  unfold textSetting
  split
  · next value given => simp [given, refuses_textOf_iff]
  · next given => simp [given]

/-- A list of texts is taken or refused exactly if its items can be shown. -/
theorem refuses_listSetting_iff :
    FailsOnly ConfigFailure.IsRefusal (listSetting fields name) ↔
      ∀ items, setting? fields name = some (.list items) → ∀ item ∈ items, item.Showable := by
  unfold listSetting
  split
  · next given => simp [given]
  · next text given => simp [given]
  · next items given => simp [given, refuses_texts_iff]
  · next value _ other given =>
    refine iff_of_true ((failsOnly_error_iff _ _).mpr ⟨_, rfl⟩) fun items listed => ?_
    exact absurd (Option.some.inj (given.symm.trans listed)) (other items)

/-- Standards are taken or refused exactly if their names can be shown. -/
theorem refuses_standardsSetting_iff :
    FailsOnly ConfigFailure.IsRefusal (standardsSetting fields name) ↔
      ∀ items, setting? fields name = some (.list items) → ∀ item ∈ items, item.Showable := by
  rw [standardsSetting, failsOnly_bind_iff, refuses_listSetting_iff]
  exact and_iff_left fun names _ => FailsOnly.mapM refuses_standard _

/-- A severity is taken or refused exactly if its name can be shown. -/
theorem refuses_severitySetting_iff :
    FailsOnly ConfigFailure.IsRefusal (severitySetting fields name) ↔
      ∀ value, setting? fields name = some value → value.Showable := by
  unfold severitySetting
  split
  · next given => simp [given]
  · next value given => simp [given, refuses_severity_iff]

/-- A limit is taken or refused exactly if it is not infinite. -/
theorem refuses_positiveSetting_iff :
    FailsOnly ConfigFailure.IsRefusal (positiveSetting fields name) ↔
      ∀ negative, setting? fields name ≠ some (.number (.infinite negative)) := by
  unfold positiveSetting
  split
  · next given => simp [given]
  · next value given =>
    rw [failsOnly_bind_iff, refuses_integerOf_iff, given]
    refine (and_iff_left fun number _ => ?_).trans (by simp)
    split
    · exact (failsOnly_error_iff _ _).mpr ⟨_, rfl⟩
    · exact failsOnly_ok _ _

/-- What is wrong with a setting is refused exactly if the setting is not unusable. The cases are what is
asked of the setting. -/
theorem refuses_iff (fields : List (Value × Value)) (setting : Setting) :
    (∀ failure, setting.fault? fields = some failure → failure.IsRefusal) ↔
      ¬ setting.Unusable fields := by
  unfold Setting.fault? Setting.Unusable Setting.given
  cases setting.demand with
  | text => simp [← failsOnly_iff_fault, refuses_textSetting_iff]
  | texts => simp [← failsOnly_iff_fault, refuses_listSetting_iff]
  | standards => simp [← failsOnly_iff_fault, refuses_standardsSetting_iff]
  | severity => simp [← failsOnly_iff_fault, refuses_severitySetting_iff]
  | limit => simp [← failsOnly_iff_fault, refuses_positiveSetting_iff]
  | flag => simp

/-- An unusable setting does not break a mapping if another setting is refused before it. -/
def Regular (fields : List (Value × Value)) : Prop :=
  ∀ before setting after, Setting.all = before ++ setting :: after → setting.Unusable fields →
    ∃ other ∈ before, other.Refused fields

/-- Settings are taken or refused exactly if every unusable one stands behind one that is refused. -/
theorem ofFields_refuses_iff (fields : List (Value × Value)) :
    FailsOnly ConfigFailure.IsRefusal (ofFields fields) ↔ Regular fields := by
  have unusable (setting : Setting) : setting.Unusable fields ↔
      ∃ failure, setting.fault? fields = some failure ∧ ¬ failure.IsRefusal := by
    simpa using (not_congr (refuses_iff fields setting)).symm
  have refused (setting : Setting) : setting.Refused fields ↔
      ∃ failure, setting.fault? fields = some failure ∧ failure.IsRefusal := by
    constructor
    · rintro ⟨error, fault⟩
      exact ⟨_, fault, error, rfl⟩
    · rintro ⟨_, fault, error, rfl⟩
      exact ⟨error, fault⟩
  rw [failsOnly_iff_fault, fault?_ofFields, first_foreseen_iff]
  simp only [Regular, unusable, refused]

/-- What accepted settings guarantee. -/
structure Lawful (fields : List (Value × Value)) (config : Config) : Prop where
  maxViolations : ∀ limit, config.maxViolations = some limit → 1 ≤ limit
  timeout : 1 ≤ config.typeCheckTimeout
  extensions : ∀ ending ∈ config.extensions, ∃ rest, ending.toList = '.' :: rest
  /-- A setting that is missing or null has its usual value. -/
  usual : ∀ setting : Setting, setting.given fields = none → setting.Same config default

/-- A limit that is given is positive. -/
theorem positive_of_positiveSetting {limit : Int} (read : positiveSetting fields name = .ok (some limit)) :
    1 ≤ limit := by
  unfold positiveSetting at read
  split at read
  · cases read
  · obtain ⟨number, _, kept⟩ := (bind_eq_ok_iff _ _ _).mp read
    split at kept
    · cases kept
    · next positive =>
      cases kept
      omega

section Missing

variable (missing : setting? fields name = none)
include missing

/-- A missing text is the usual one. -/
theorem textSetting_of_missing (usual : String) : textSetting fields name usual = .ok usual := by
  rw [textSetting, missing]

/-- Missing texts are none. -/
theorem listSetting_of_missing : listSetting fields name = .ok none := by
  rw [listSetting, missing]

/-- Missing standards are none. -/
theorem standardsSetting_of_missing : standardsSetting fields name = .ok [] := by
  rw [standardsSetting, listSetting_of_missing missing]
  rfl

/-- A missing severity is none. -/
theorem severitySetting_of_missing : severitySetting fields name = .ok none := by
  rw [severitySetting, missing]

/-- A missing limit is none. -/
theorem positiveSetting_of_missing : positiveSetting fields name = .ok none := by
  rw [positiveSetting, missing]

end Missing

/-- An ending has its point. -/
theorem withPoint_begins (text : List Char) : ∃ rest, withPoint text = '.' :: rest := by
  unfold withPoint
  split
  · exact ⟨_, rfl⟩
  · exact ⟨text, rfl⟩

/-- Accepted settings are lawful. -/
theorem lawful_of_ofFields {config : Config} (read : ofFields fields = .ok config) :
    Lawful fields config := by
  simp only [ofFields, bind_eq_ok_iff] at read
  obtain ⟨standardsDirectory, first, typeCheckCommand, second, backupDirectory, third, reportDirectory,
    fourth, includeDirectories, fifth, excludeDirectories, sixth, extensions, seventh, standards, eighth,
    minSeverity, ninth, maxViolations, tenth, timeout, eleventh, made⟩ := read
  cases made
  refine ⟨?_, ?_, ?_, ?_⟩
  · rintro limit rfl
    exact positive_of_positiveSetting tenth
  · cases timeout with
    | none => exact (by decide : (1 : Int) ≤ Compiler.defaultTimeout)
    | some limit => exact positive_of_positiveSetting eleventh
  · intro ending member
    cases extensions with
    | none =>
      have usual : ∀ ending ∈ default.extensions, ending.toList.head? = some '.' := by decide
      obtain ⟨rest, begins⟩ := List.head?_eq_some_iff.mp (usual ending member)
      exact ⟨rest, begins⟩
    | some texts =>
      obtain ⟨written, dotted, rfl⟩ := List.mem_map.mp member
      obtain ⟨text, _, rfl⟩ := List.mem_map.mp dotted
      rw [String.toList_ofList]
      exact withPoint_begins text
  · intro setting missing
    have same {α : Type} {work : Except ConfigFailure α} {value usual : α} (read : work = .ok value)
        (known : work = .ok usual) : value = usual := Except.ok.inj (read.symm.trans known)
    cases setting with
    | standardsDirectory => exact same first (textSetting_of_missing missing _)
    | typeCheckCommand => exact same second (textSetting_of_missing missing _)
    | backupDirectory => exact same third (textSetting_of_missing missing _)
    | reportDirectory => exact same fourth (textSetting_of_missing missing _)
    | includeDirectories =>
      cases same fifth (listSetting_of_missing missing)
      rfl
    | excludeDirectories =>
      cases same sixth (listSetting_of_missing missing)
      rfl
    | extensions =>
      cases same seventh (listSetting_of_missing missing)
      rfl
    | standards => exact same eighth (standardsSetting_of_missing missing)
    | minSeverity => exact same ninth (severitySetting_of_missing missing)
    | maxViolations => exact same tenth (positiveSetting_of_missing missing)
    | typeCheckTimeout =>
      cases same eleventh (positiveSetting_of_missing missing)
      rfl
    | typeCheck =>
      have unsaid : setting? fields "type_check" = none := missing
      simp [Setting.Same, unsaid, default]

/-- Only the settings have a part in the configuration. -/
theorem ofFields_congr {others : List (Value × Value)}
    (same : ∀ setting : Setting, setting.given others = setting.given fields) :
    ofFields others = ofFields fields := by
  have standardsDirectory : setting? others "standards_dir" = setting? fields "standards_dir" :=
    same .standardsDirectory
  have typeCheckCommand : setting? others "typecheck_command" = setting? fields "typecheck_command" :=
    same .typeCheckCommand
  have backupDirectory : setting? others "backup_dir" = setting? fields "backup_dir" :=
    same .backupDirectory
  have reportDirectory : setting? others "report_dir" = setting? fields "report_dir" :=
    same .reportDirectory
  have includeDirectories : setting? others "include_dirs" = setting? fields "include_dirs" :=
    same .includeDirectories
  have excludeDirectories : setting? others "exclude_dirs" = setting? fields "exclude_dirs" :=
    same .excludeDirectories
  have extensions : setting? others "extensions" = setting? fields "extensions" := same .extensions
  have standards : setting? others "standards" = setting? fields "standards" := same .standards
  have minSeverity : setting? others "min_severity" = setting? fields "min_severity" := same .minSeverity
  have maxViolations : setting? others "max_violations" = setting? fields "max_violations" :=
    same .maxViolations
  have typeCheckTimeout : setting? others "typecheck_timeout" = setting? fields "typecheck_timeout" :=
    same .typeCheckTimeout
  have typeCheck : setting? others "type_check" = setting? fields "type_check" := same .typeCheck
  simp only [ofFields, textSetting, listSetting, standardsSetting, severitySetting, positiveSetting,
    standardsDirectory, typeCheckCommand, backupDirectory, reportDirectory, includeDirectories,
    excludeDirectories, extensions, standards, minSeverity, maxViolations, typeCheckTimeout, typeCheck]

/-- **Settings that are accepted are lawful, other fields have no part in them, and all others are
refused, exactly if every unusable setting stands behind one that is refused.** -/
theorem settings_lawful_or_refused (fields : List (Value × Value)) :
    (∀ config, ofFields fields = .ok config → Lawful fields config) ∧
      (∀ others, (∀ setting : Setting, setting.given others = setting.given fields) →
        ofFields others = ofFields fields) ∧
      (FailsOnly ConfigFailure.IsRefusal (ofFields fields) ↔ Regular fields) :=
  ⟨fun _ => lawful_of_ofFields, fun _ => ofFields_congr, ofFields_refuses_iff fields⟩

/-- A mapping that sets an infinite limit and nothing else. -/
def endless : List (Value × Value) := [(.text "max_violations".toList, .number (.infinite false))]

/-- An infinite limit is neither taken nor refused. -/
theorem infinite_limit_escapes :
    ofFields endless = .error .unbounded ∧ ¬ FailsOnly ConfigFailure.IsRefusal (ofFields endless) := by
  have escapes : ofFields endless = .error .unbounded := by rfl
  refine ⟨escapes, fun refuses => ?_⟩
  obtain ⟨error, refused⟩ := refuses _ escapes
  cases refused

end Config

end Conformance
