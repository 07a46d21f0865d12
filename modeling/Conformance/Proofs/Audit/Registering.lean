import Conformance.Audit.Project
import Conformance.Proofs.Audit.Aggregation
import Conformance.Proofs.Disk.Entries
import Conformance.Proofs.Document.Numbering
import Conformance.Proofs.Order.Sorting

/-!
# Registries of documents

The rules of a directory of standards get identifiers that tell their standards. So a registry
can be made of them unless two documents define one standard, and it then finds the one rule of
each identifier. The tally of an audit, which reads the standard off the identifier, counts each
violation for the standard of its rule.
-/

namespace Conformance

namespace Document

open Text

/-- The standard that a file of a directory defines, with the name of the file. -/
def standardNamed? (name : String) : Option (String × Standard) :=
  if skippedDocuments.contains (String.ofList (lower name.toList)) then none
  else (standardOfFile? name).map fun standard => (name, standard)

/-- The documents of a directory that define a standard, in order. -/
def recognised (disk : Disk) (directory : Path) : List (String × Standard) :=
  (documentNames disk directory).filterMap standardNamed?

/-- A document has rules of a standard. -/
def Yields (disk : Disk) (directory : Path) (name : String) (standard : Standard) : Prop :=
  ∃ content, disk.readText (directory.child name) = .ok content ∧ rules content standard ≠ []

/-- Two documents of a directory define one standard, and both have rules of it. Their names
differ in case only. -/
def HasTwins (disk : Disk) (directory : Path) : Prop :=
  ∃ first second standard, first ≠ second ∧ lower first.toList = lower second.toList ∧
    (first, standard) ∈ recognised disk directory ∧
    (second, standard) ∈ recognised disk directory ∧
    Yields disk directory first standard ∧ Yields disk directory second standard

variable {disk : Disk} {directory : Path}

/-- Every document that defines a standard can be read. -/
def Readable (disk : Disk) (directory : Path) : Prop :=
  ∀ item ∈ recognised disk directory, ∃ content,
    disk.readText (directory.child item.1) = .ok content

/-- What is read of a document. -/
def contentOf (disk : Disk) (directory : Path) (name : String) : List Char :=
  match disk.readText (directory.child name) with
  | .ok content => content
  | .error _ => []

/-- What is made of a document. -/
def documentOf (disk : Disk) (directory : Path) (item : String × Standard) : StandardDocument :=
  ⟨item.2, directory.child item.1, contentOf disk directory item.1,
    rules (contentOf disk directory item.1) item.2⟩

/-- A name is passed over or the document of its standard is read. -/
theorem readNamed_cons (name : String) (names : List String) :
    readNamed disk directory (name :: names) =
      match standardNamed? name with
      | none => readNamed disk directory names
      | some item =>
        (readDocument disk (directory.child item.1) item.2).bind fun document =>
          (readNamed disk directory names).map (document :: ·) := by
  rw [readNamed, standardNamed?]
  split
  · rfl
  · cases standardOfFile? name <;> rfl

/-- Of some names the documents are read that define a standard. -/
theorem readNamed_eq (names : List String)
    (readable : ∀ item ∈ names.filterMap standardNamed?, ∃ content,
      disk.readText (directory.child item.1) = .ok content) :
    readNamed disk directory names =
      .ok ((names.filterMap standardNamed?).map (documentOf disk directory)) := by
  induction names with
  | nil => rfl
  | cons name names inductionHypothesis =>
    rw [readNamed_cons]
    cases told : standardNamed? name with
    | none =>
      rw [List.filterMap_cons_none told] at readable ⊢
      exact inductionHypothesis readable
    | some item =>
      rw [List.filterMap_cons_some told] at readable ⊢
      obtain ⟨⟨content, read⟩, others⟩ := List.forall_mem_cons.mp readable
      simp only [readDocument, read, inductionHypothesis others, List.map_cons, documentOf, contentOf]
      rfl

/-- The names of documents are all different. -/
theorem nodup_recognised (distinct : disk.Distinct) :
    ((recognised disk directory).map Prod.fst).Nodup := by
  have listed : (documentNames disk directory).Nodup := by
    rw [documentNames, (Order.perm_sort _ _).nodup_iff]
    apply List.Nodup.filter
    unfold Disk.list
    split
    · exact distinct.nodup_children _
    · exact List.nodup_nil
  rw [recognised, List.map_filterMap]
  have named : ∀ name found, (standardNamed? name).map Prod.fst = some found → found = name := by
    intro name found told
    unfold standardNamed? at told
    split at told
    · cases told
    · simp only [Option.map_map, Option.map_eq_some_iff, Function.comp] at told
      obtain ⟨_, _, same⟩ := told
      exact same.symm
  apply listed.filterMap
  intro first second found one two
  rw [← named first found one, named second found two]

/-- A document is told from its standard up to case. -/
theorem lower_of_mem_recognised {name : String} {standard : Standard}
    (member : (name, standard) ∈ recognised disk directory) :
    lower name.toList = standard.name.toList ++ ".md".toList := by
  obtain ⟨other, among, told⟩ := List.mem_filterMap.mp member
  unfold standardNamed? at told
  split at told
  · cases told
  obtain ⟨found, known, same⟩ := Option.map_eq_some_iff.mp told
  obtain ⟨rfl, rfl⟩ := Prod.mk.inj same
  -- The name ends in the ending, which is in lower case already.
  obtain ⟨stem, spelled⟩ : ∃ stem, other.toList = stem ++ ".md".toList := by
    rw [documentNames, Order.mem_sort, List.mem_filter, endsWith, List.isPrefixOf_iff_prefix,
      List.reverse_prefix] at among
    obtain ⟨stem, joined⟩ := among.2
    exact ⟨stem, joined.symm⟩
  have lowered : lower other.toList = lower stem ++ ".md".toList := by
    rw [spelled, lower, List.flatMap_append]
    rfl
  have ending : endsWith ".md".toList (lower other.toList) = true := by
    rw [lowered, endsWith, List.isPrefixOf_iff_prefix, List.reverse_prefix]
    exact List.suffix_append _ _
  have cut : (lower other.toList).take ((lower other.toList).length - ".md".toList.length) =
      lower stem := by
    rw [lowered, List.length_append, Nat.add_sub_cancel, List.take_left]
  simp only [standardOfFile?, ending, if_true, cut] at known
  rw [lowered, Standard.name_of_ofName? known]
  exact congrArg (· ++ _) String.toList_ofList.symm

end Document

namespace Audit

open Document

/-- A registry is refused exactly if an identifier is repeated. -/
theorem ofRules_error_iff (rules : List Rule) :
    (∃ error, Registry.ofRules rules = .error error) ↔ ¬ (rules.map (·.id)).Nodup := by
  have unique := firstDuplicate?_eq_none_iff [] rules
  simp only [List.not_mem_nil, not_false_eq_true, implies_true, true_and] at unique
  rw [← unique]
  unfold Registry.ofRules
  constructor
  · rintro ⟨error, refused⟩ none
    split at refused
    · next ruleId found => rw [none] at found; cases found
    · cases refused
  · intro repeated
    split
    · exact ⟨_, rfl⟩
    · next none => exact absurd none repeated

/-- The identifiers in a registry are all different. -/
theorem Registry.nodup_ids (registry : Registry) : (registry.rules.map (·.id)).Nodup :=
  ((firstDuplicate?_eq_none_iff [] registry.rules).mp registry.firstDuplicate_eq_none).2

/-- A registry that is made of rules holds these. -/
theorem rules_of_ofRules {rules : List Rule} {registry : Registry}
    (made : Registry.ofRules rules = .ok registry) : registry.rules = rules := by
  unfold Registry.ofRules at made
  split at made
  · cases made
  · exact congrArg Registry.rules (Except.ok.inj made).symm

/-- A registry finds exactly the rule that has an identifier. -/
theorem Registry.get?_eq_some_iff (registry : Registry) (ruleId : String) (rule : Rule) :
    registry.get? ruleId = some rule ↔ rule ∈ registry.rules ∧ rule.id = ruleId := by
  constructor
  · intro found
    exact ⟨List.mem_of_find?_eq_some found, eq_of_beq (List.find?_some found :)⟩
  · rintro ⟨member, rfl⟩
    exact find?_id registry.rules registry.nodup_ids rule member

/-- The identifiers of the rules tell their standards. -/
def TellsStandards (rules : List Rule) : Prop :=
  ∀ rule ∈ rules, standardOfRuleId rule.id = rule.standard.name

/-- An audit against a registry counts each violation for the standard of its rule. -/
theorem tally_of_registry (registry : Registry) (tells : TellsStandards registry.rules)
    (disk : Disk) (files : List ScannedFile) (options : Options) :
    ∃ result, validate disk files registry.rules options = .ok result ∧
      (∀ violation ∈ result.violations, (registry.get? violation.ruleId).isSome) ∧
      ∀ name, (result.byStandard.lookup name).getD 0 =
        result.violations.countP fun violation =>
          (registry.get? violation.ruleId).any (·.standard.name == name) := by
  have distinct := registry.nodup_ids
  refine ⟨_, validate_eq disk files registry.rules options distinct, ?_⟩
  have ruled : ∀ violation ∈ (combine (resultsOf disk (registry.rules.filter options.selects)
      options.typeCheck files) options.maxViolations).violations,
      ∃ rule, registry.get? violation.ruleId = some rule ∧
        standardOfRuleId violation.ruleId = rule.standard.name := by
    intro violation member
    have listed := (Order.isStableSort_inOrder _).perm.mem_iff.mp
      ((capped_begins _ _).subset member)
    obtain ⟨answer, among, inside⟩ := List.mem_flatMap.mp listed
    have narrow : ((registry.rules.filter options.selects).map (·.id)).Nodup :=
      (List.filter_sublist.map _).nodup distinct
    obtain ⟨rule, selected, found⟩ := find?_of_mem_resultsOf disk _ narrow options.typeCheck files
      answer among violation inside
    have id : rule.id = violation.ruleId := eq_of_beq (List.find?_some found :)
    have known := (List.mem_filter.mp selected).1
    exact ⟨rule, (registry.get?_eq_some_iff _ rule).mpr ⟨known, id⟩, id ▸ tells rule known⟩
  refine ⟨?_, ?_⟩
  · intro violation member
    obtain ⟨rule, found, _⟩ := ruled violation member
    rw [found, Option.isSome_some]
  · intro name
    simp only [combine, tallyByStandard, lookup_tally, List.count, List.countP_map] at ruled ⊢
    apply List.countP_congr
    intro violation member
    obtain ⟨rule, found, standard⟩ := ruled violation member
    simp [Function.comp, found, standard]

variable {disk : Disk} {directory : Path}

/-- The rules of the documents of a directory. -/
def rulesIn (disk : Disk) (directory : Path) : List Rule :=
  (recognised disk directory).flatMap fun item => rules (contentOf disk directory item.1) item.2

/-- The registry of a readable directory is made of the rules of its documents. -/
theorem ofDirectory_eq (present : disk.isDirectory directory = true)
    (readable : Readable disk directory) :
    Registry.ofDirectory disk directory =
      match Registry.ofRules (rulesIn disk directory) with
      | .error error => .error (.duplicate error)
      | .ok registry => .ok registry := by
  have documents := readNamed_eq (documentNames disk directory) readable
  have all : ((recognised disk directory).map (documentOf disk directory)).flatMap (·.rules) =
      rulesIn disk directory := by
    simp only [List.flatMap_map, rulesIn, documentOf]
  simp only [Registry.ofDirectory, readDirectory, present, if_true, documents]
  rw [← all]
  rfl

/-- The rules in a directory have identifiers that tell their standards. -/
theorem tellsStandards_rulesIn : TellsStandards (rulesIn disk directory) := by
  intro rule member
  obtain ⟨item, _, inside⟩ := List.mem_flatMap.mp member
  rw [(spec_of_mem_rules _ _ rule inside).1]
  exact standardOfRuleId_of_mem_ids (List.mem_map_of_mem inside)

/-- What a document has rules of, once it can be read. -/
theorem yields_iff (readable : Readable disk directory) {item : String × Standard}
    (member : item ∈ recognised disk directory) :
    Yields disk directory item.1 item.2 ↔ rules (contentOf disk directory item.1) item.2 ≠ [] := by
  obtain ⟨content, read⟩ := readable item member
  simp [Yields, contentOf, read]

/-- An identifier is repeated in a directory exactly if two of its documents define one
standard. -/
theorem nodup_rulesIn_iff (distinct : disk.Distinct) (readable : Readable disk directory) :
    ((rulesIn disk directory).map (·.id)).Nodup ↔ ¬ HasTwins disk directory := by
  have apart : (recognised disk directory).Pairwise fun item other => item.1 ≠ other.1 := by
    have named : ((recognised disk directory).map Prod.fst).Nodup := nodup_recognised distinct
    rwa [List.Nodup, List.pairwise_map] at named
  rw [rulesIn, List.map_flatMap, List.nodup_flatMap]
  constructor
  · rintro ⟨_, separate⟩ ⟨first, second, standard, differ, _, one, two, yields, again⟩
    have here := first_mem_ids_rules _ _ ((yields_iff readable one).mp yields)
    have there := first_mem_ids_rules _ _ ((yields_iff readable two).mp again)
    have symmetric : Std.Symm (Function.onFun List.Disjoint fun item : String × Standard =>
        (rules (contentOf disk directory item.1) item.2).map (·.id)) :=
      ⟨fun _ _ disjoint _ inside within => disjoint within inside⟩
    have names : (first, standard) ≠ (second, standard) := fun same => differ (Prod.mk.inj same).1
    exact separate.forall one two names here there
  · intro single
    refine ⟨fun item _ => nodup_ids_rules _ _, ?_⟩
    apply apart.imp_of_mem
    rintro ⟨first, standard⟩ ⟨second, other⟩ one two differ id here there
    -- The identifier tells the standard, and the standard tells the name up to case.
    obtain rfl : standard = other := Standard.name_injective
      ((standardOfRuleId_of_mem_ids here).symm.trans (standardOfRuleId_of_mem_ids there))
    have folded := (lower_of_mem_recognised one).trans (lower_of_mem_recognised two).symm
    refine single ⟨first, second, standard, differ, folded, one, two, ?_, ?_⟩
    · exact (yields_iff readable one).mpr fun none => by simp [none] at here
    · exact (yields_iff readable two).mpr fun none => by simp [none] at there

/-- The rules of every document are numbered through from one on, and their identifiers tell the
standard. So a readable directory is refused exactly if two of its documents define one standard
and both have rules of it; every registry that is made of it finds the one rule of each
identifier, and an audit against it counts every violation for the standard of its rule. -/
theorem directory_registers (disk : Disk) (directory : Path) (distinct : disk.Distinct)
    (present : disk.isDirectory directory = true) (readable : Readable disk directory) :
    (∀ content standard,
      (rules content standard).map (·.id) =
        (List.range' 1 (rules content standard).length).map
          (fun number : Nat => ruleId standard number) ∧
      ((rules content standard).map (·.id)).Nodup ∧
      ∀ rule ∈ rules content standard, standardOfRuleId rule.id = standard.name) ∧
    ((∃ error, Registry.ofDirectory disk directory = .error (.duplicate error)) ↔
      HasTwins disk directory) ∧
    (¬ HasTwins disk directory →
      ∃ registry, Registry.ofDirectory disk directory = .ok registry) ∧
    ∀ registry, Registry.ofDirectory disk directory = .ok registry →
      (∀ ruleId rule, registry.get? ruleId = some rule ↔
        rule ∈ registry.rules ∧ rule.id = ruleId) ∧
      ∀ audited files options, ∃ result,
        validate audited files registry.rules options = .ok result ∧
        (∀ violation ∈ result.violations, (registry.get? violation.ruleId).isSome) ∧
        ∀ name, (result.byStandard.lookup name).getD 0 =
          result.violations.countP fun violation =>
            (registry.get? violation.ruleId).any (·.standard.name == name) := by
  have made := ofDirectory_eq present readable
  have refused := (ofRules_error_iff (rulesIn disk directory)).trans
    (not_congr (nodup_rulesIn_iff distinct readable))
  rw [not_not] at refused
  refine ⟨?_, ?_, ?_, ?_⟩
  · intro content standard
    exact ⟨ids_rules content standard, nodup_ids_rules content standard,
      fun rule member => standardOfRuleId_of_mem_ids (List.mem_map_of_mem member)⟩
  · rw [made, ← refused]
    cases Registry.ofRules (rulesIn disk directory) <;> simp
  · intro single
    rw [made]
    cases kept : Registry.ofRules (rulesIn disk directory) with
    | error error => exact absurd (refused.mp ⟨error, kept⟩) single
    | ok registry => exact ⟨registry, rfl⟩
  · intro registry built
    rw [made] at built
    cases kept : Registry.ofRules (rulesIn disk directory) with
    | error error => simp [kept] at built
    | ok other =>
      obtain rfl : other = registry := by simpa [kept] using built
      have tells : TellsStandards other.rules := by
        rw [rules_of_ofRules kept]
        exact tellsStandards_rulesIn
      exact ⟨other.get?_eq_some_iff, tally_of_registry other tells⟩

/-- A directory with two documents that define one standard. -/
def twinDisk : Disk :=
  ⟨[], [(["d"], .directory), (["d", "React.md"], .file []), (["d", "react.md"], .file [])]⟩

/-- The two documents of one standard are refused, since the standard has rules of its own. -/
theorem directory_registers_twins :
    ∃ error, Registry.ofDirectory twinDisk (.ofString "/d") = .error (.duplicate error) := by
  have found : recognised twinDisk (.ofString "/d") = [("React.md", .react), ("react.md", .react)] := by
    decide
  have readable : Readable twinDisk (.ofString "/d") := by
    intro item member
    rw [found, List.mem_pair] at member
    rcases member with rfl | rfl <;> exact ⟨[], by decide⟩
  apply (directory_registers twinDisk (.ofString "/d") (by decide) (by decide) readable).2.1.mpr
  refine ⟨"React.md", "react.md", .react, by decide, by decide, ?_, ?_, ?_, ?_⟩
  · simp [found]
  · simp [found]
  · exact ⟨[], by decide, by decide⟩
  · exact ⟨[], by decide, by decide⟩

end Audit

end Conformance
