import Conformance.Document.Rules
import Conformance.Fix.Fixers
import Conformance.Proofs.Fix.LeadingDirective
import Conformance.Proofs.Fix.Revising
import Conformance.Proofs.Matching.Reporting
import Conformance.Proofs.Matching.Suppressions
import Conformance.Proofs.Text.Parts

/-!
# Which fixer a violation goes to

Each fixer has a topic. It claims a violation whose rule is named for the topic or whose message speaks of it,
if it finds something to do. Four rules of the catalogue are made for a topic each. Their violations, and those
of the other rules, go to no other fixer except for two reasons: the message of the rule for return types
speaks of exports as well, and some messages hold a piece of the project, which may speak of anything.
-/

namespace Conformance.Fix

open Text Syntax Document Matching

/-- What a fixer is about. -/
inductive Topic where
  | directive
  | exports
  | console
  | returnTypes
  deriving Repr, DecidableEq

namespace Topic

/-- The topics in the order of their fixers. -/
def all : List Topic := [directive, exports, console, returnTypes]

/-- The fixer of a topic. -/
def fixer : Topic → Fixer
  | directive => directiveFixer
  | exports => exportFixer
  | console => consoleFixer
  | returnTypes => returnTypeFixer

/-- The words of which one stands in the name of a rule on a topic. -/
def names : Topic → List String
  | directive => ["use-client", "directive"]
  | exports => ["export"]
  | console => ["console"]
  | returnTypes => ["return-type"]

/-- The words that speak of a topic. -/
def word : Topic → String
  | directive => "use client"
  | exports => "export"
  | console => "console"
  | returnTypes => "return type"

/-- Whether words speak of a topic, in letters of either case. -/
def isIn (topic : Topic) (words : String) : Bool := occursIn topic.word.toList (lower words.toList)

/-- Whether a rule is named for a topic. -/
def names? (topic : Topic) (ruleName : String) : Bool := topic.names.any (mentions · ruleName)

/-- Whether a text gives the fixer of a topic something to do. -/
def hasWork : Topic → List Char → Bool
  | directive, text => !hasDirective text && hookCall.occursIn text
  | exports, text => nameExports text != text
  | console, text => hasConsoleCall text
  | returnTypes, _ => true

/-- The topic that a rule of the catalogue is made for. -/
def ofRule? (ruleName : String) : Option Topic :=
  [("missing-use-client-directive", directive), ("no-default-export", exports), ("no-console", console),
    ("explicit-return-type", returnTypes)].lookup ruleName

end Topic

/-- A violation goes to no fixer but the one for its rule. -/
def GoesToOwn (ruleName : String) (violation : Violation) (text : List Char) : Prop :=
  ∀ fixer, Changes.claimant? violation text defaultFixers = .ok (some fixer) →
    (Topic.ofRule? ruleName).map Topic.fixer = some fixer

variable {topic : Topic} {violation : Violation} {text : List Char}

/-! Topics and their fixers. -/

/-- A fixer claims what its topic is in, if it has something to do. -/
theorem claims_fixer (topic : Topic) (violation : Violation) (text : List Char) :
    topic.fixer.claims violation text =
      .ok ((topic.names? violation.ruleName || topic.isIn violation.message) && topic.hasWork text) := by
  cases topic <;>
    simp [Topic.fixer, Topic.names?, Topic.names, Topic.isIn, Topic.word, Topic.hasWork, directiveFixer,
      exportFixer, consoleFixer, returnTypeFixer, isAboutDirective, isAboutExports, isAboutConsole,
      isAboutReturnTypes, Bool.and_assoc]

/-- Different topics have different fixers. -/
theorem fixer_injective {first second : Topic} (same : first.fixer = second.fixer) : first = second := by
  have kinds := congrArg Fixer.kind same
  cases first <;> cases second <;> first | rfl | exact absurd kinds (by decide)

/-- A violation goes to the fixer of the first topic that is in it and has something to do. -/
theorem claimant_default (violation : Violation) (text : List Char) :
    Changes.claimant? violation text defaultFixers = .ok ((Topic.all.find? fun topic =>
      (topic.names? violation.ruleName || topic.isIn violation.message) && topic.hasWork text).map
        Topic.fixer) := by
  have decided (topics : List Topic) :
      Changes.claimant? violation text (topics.map Topic.fixer) = .ok ((topics.find? fun topic =>
        (topic.names? violation.ruleName || topic.isIn violation.message) && topic.hasWork text).map
          Topic.fixer) := by
    induction topics with
    | nil => rfl
    | cons topic topics inductionHypothesis =>
      rw [List.map_cons, Changes.claimant?, claims_fixer, List.find?_cons]
      split
      · next broken => cases broken
      · next claimed => rw [Except.ok.inj claimed]; rfl
      · next passed => rw [Except.ok.inj passed]; exact inductionHypothesis
  exact decided Topic.all

/-- A violation goes to its own fixer exactly if no other topic comes first among those that are in it and
have something to do. -/
theorem goesToOwn_iff (ruleName : String) : GoesToOwn ruleName violation text ↔
    ∀ topic, (Topic.all.find? fun topic =>
      (topic.names? violation.ruleName || topic.isIn violation.message) && topic.hasWork text) = some topic →
        Topic.ofRule? ruleName = some topic := by
  unfold GoesToOwn
  rw [claimant_default]
  constructor
  · intro goes topic first
    obtain ⟨own, made, same⟩ := Option.map_eq_some_iff.mp (goes topic.fixer (by rw [first]; rfl))
    rw [made, fixer_injective same]
  · intro goes fixer claimed
    obtain ⟨topic, first, rfl⟩ := Option.map_eq_some_iff.mp (Except.ok.inj claimed)
    rw [goes topic first]
    rfl

/-! What the messages about the rules of the catalogue speak of. -/

/-- Nothing is said in no words. -/
theorem isIn_empty (topic : Topic) : topic.isIn "" = false := by cases topic <;> rfl

/-- The words of the topics are spelled in letters and blanks, and begin with a letter. -/
theorem word_spelled (topic : Topic) : topic.word.toList ≠ [] ∧ topic.word.toList.head? ≠ some ' ' ∧
    '"' ∉ topic.word.toList ∧ '-' ∉ topic.word.toList := by
  cases topic <;> decide

/-- Letters are made small one by one. -/
theorem lower_append (first second : List Char) : lower (first ++ second) = lower first ++ lower second :=
  List.flatMap_append

/-- What is said on either side of a mark that no topic has in its words is said apart. -/
theorem isIn_parted (topic : Topic) {mark : Char} (plain : lower [mark] = [mark])
    (lacks : mark ∉ topic.word.toList) (front back : String) :
    topic.isIn (front ++ String.ofList [mark] ++ back) = (topic.isIn front || topic.isIn back) := by
  unfold Topic.isIn
  rw [Bool.eq_iff_iff, Bool.or_eq_true, occursIn_iff, occursIn_iff, occursIn_iff, String.toList_append,
    String.toList_append, String.toList_ofList, lower_append, lower_append, plain, List.append_assoc,
    List.singleton_append, infix_append_cons_iff (word_spelled topic).1 lacks]

/-- A text between quotation marks speaks of a topic apart from what stands around it. -/
theorem isIn_quoted (topic : Topic) (front piece back : String) :
    topic.isIn (front ++ "\"" ++ piece ++ ("\"" ++ back)) =
      (topic.isIn front || topic.isIn piece || topic.isIn back) := by
  have mark : "\"" = String.ofList ['"'] := rfl
  have plain : lower ['"'] = ['"'] := by decide
  have lacks := (word_spelled topic).2.2.1
  rw [← String.append_assoc, mark, isIn_parted topic plain lacks, isIn_parted topic plain lacks]

/-- So does a text behind a dash. -/
theorem isIn_dashed (topic : Topic) (front back : String) :
    topic.isIn (front ++ "- " ++ back) = (topic.isIn front || topic.isIn back) := by
  obtain ⟨_, solid, _, lacks⟩ := word_spelled topic
  have plain : lower ['-'] = ['-'] := by decide
  have mark : "- " = String.ofList ['-'] ++ String.ofList [' '] := rfl
  have spaced : topic.isIn (String.ofList [' '] ++ back) = topic.isIn back := by
    have blank : lower [' '] = [' '] := by decide
    unfold Topic.isIn
    rw [Bool.eq_iff_iff, occursIn_iff, occursIn_iff, String.toList_append, String.toList_ofList, lower_append,
      blank, List.singleton_append, List.infix_cons_iff]
    refine or_iff_right fun opens => ?_
    cases word : topic.word.toList with
    | nil => exact (word_spelled topic).1 word
    | cons w rest =>
      rw [word] at opens solid
      exact solid (congrArg some (List.cons_prefix_cons.mp opens).1)
  rw [mark, ← String.append_assoc, String.append_assoc, isIn_parted topic plain lacks, spaced]

/-- What words speak of that are spelled out is found by trying all topics. -/
theorem isIn_of_spelled {words : String} {spoken : Topic → Bool} (letters : List Char)
    (spelled : words = String.ofList letters)
    (tried : (Topic.all.all fun topic => occursIn topic.word.toList (lower letters) == spoken topic) = true)
    (topic : Topic) : topic.isIn words = spoken topic := by
  have known : topic ∈ Topic.all := by cases topic <;> decide
  rw [spelled, Topic.isIn, String.toList_ofList]
  exact beq_iff_eq.mp (List.all_eq_true.mp tried topic known)

/-- Whether a rule of the catalogue goes by its own words to the fixer of a topic: the one that it is made
for, or that of exports, of which the rule for return types speaks. -/
def isDue (ruleName : String) (topic : Topic) : Bool :=
  Topic.ofRule? ruleName == some topic || (topic == .exports && ruleName == "explicit-return-type")

variable {standard : Standard} {entry : CatalogueEntry} {file : SourceFile} {before piece behind : String}

/-- The message of a rule speaks of the topics that the rule is due to. -/
theorem isIn_message (listed : entry ∈ catalogue standard) (topic : Topic) :
    topic.isIn entry.message = isDue entry.name topic := by
  cases standard <;> simp only [catalogue, List.mem_cons, List.not_mem_nil, or_false] at listed
  case typescript =>
    rcases listed with rfl | rfl | rfl | rfl | rfl
    all_goals exact isIn_of_spelled _ rfl (by decide +kernel) topic
  case react =>
    rcases listed with rfl | rfl
    all_goals exact isIn_of_spelled _ rfl (by decide +kernel) topic
  case nextjs =>
    rcases listed with rfl | rfl | rfl
    all_goals exact isIn_of_spelled _ rfl (by decide +kernel) topic
  case security =>
    rcases listed with rfl | rfl | rfl
    all_goals exact isIn_of_spelled _ rfl (by decide +kernel) topic

/-- What holds of the names of all rules of the catalogue that ask for something, and of all topics, is found by
trying. -/
theorem forall_catalogue (asks : Standard → String → Bool) (holds : String → Topic → Bool)
    (tried : (Standard.all.all fun standard => (catalogue standard).all fun entry =>
      !asks standard entry.name || Topic.all.all (holds entry.name)) = true)
    (listed : entry ∈ catalogue standard) (asked : asks standard entry.name = true) (topic : Topic) :
    holds entry.name topic = true := by
  have among : standard ∈ Standard.all := by cases standard <;> decide
  have known : topic ∈ Topic.all := by cases topic <;> decide
  have one := List.all_eq_true.mp (List.all_eq_true.mp tried standard among) entry listed
  rw [asked, Bool.not_true, Bool.false_or] at one
  exact List.all_eq_true.mp one topic known

/-- Rules that ask for something are due to no topic, if trying them all tells so. -/
theorem undue_of_asked (asks : Standard → String → Bool)
    (tried : (Standard.all.all fun standard => (catalogue standard).all fun entry =>
      !asks standard entry.name || Topic.all.all fun topic => !isDue entry.name topic) = true)
    (listed : entry ∈ catalogue standard) (asked : asks standard entry.name = true) (topic : Topic) :
    isDue entry.name topic = false := by
  simpa using forall_catalogue asks (fun name topic => !isDue name topic) tried listed asked topic

/-- A rule is named only for topics that it is due to. -/
theorem isDue_of_names (listed : entry ∈ catalogue standard) (topic : Topic) :
    (topic.names? entry.name || isDue entry.name topic) = isDue entry.name topic :=
  beq_iff_eq.mp (forall_catalogue (fun _ _ => true) (fun name topic =>
    (topic.names? name || isDue name topic) == isDue name topic) (by decide +kernel) listed rfl topic)

/-- A rule that is due to no topic is named for none. -/
theorem unnamed_of_undue (listed : entry ∈ catalogue standard) (undue : ∀ topic, isDue entry.name topic = false)
    (topic : Topic) : topic.names? entry.name = false := by
  have unnamed := isDue_of_names listed topic
  rwa [undue, Bool.or_false] at unnamed

/-- The suppressions of a source are those of two kinds. -/
def KnowsSuppressions (file : SourceFile) : Prop :=
  ∀ fact ∈ file.facts.suppressions, fact.directive = "ts-ignore" ∨ fact.directive = "ts-nocheck"

/-- A message about a rule speaks of the topics that the rule is due to, and of those of which the piece of
the project in it speaks. Only rules that are due to no topic take a piece of the project. -/
structure SpeaksDue (ruleName before piece behind : String) : Prop where
  topics : ∀ topic : Topic, (topic.names? ruleName || topic.isIn (before ++ piece ++ behind)) =
    (isDue ruleName topic || topic.isIn piece)
  apart : piece = "" ∨ ∀ topic, isDue ruleName topic = false

/-- A message without a piece of the project. -/
theorem SpeaksDue.plain (listed : entry ∈ catalogue standard) {message : String}
    (same : ∀ topic : Topic, topic.isIn message = isDue entry.name topic) :
    SpeaksDue entry.name message "" "" := by
  refine ⟨fun topic => ?_, .inl rfl⟩
  rw [String.append_empty, String.append_empty, isIn_empty, Bool.or_false, same, isDue_of_names listed]

/-- The message of a rule behind words that speak of nothing else. -/
theorem SpeaksDue.dashed (listed : entry ∈ catalogue standard) {front : String}
    (due : ∀ topic : Topic, (!topic.isIn front || isDue entry.name topic) = true) :
    SpeaksDue entry.name (front ++ "- " ++ entry.message) "" "" := by
  refine .plain listed fun topic => ?_
  rw [isIn_dashed, isIn_message listed]
  have either := due topic
  cases heard : topic.isIn front with
  | false => rfl
  | true =>
    rw [heard] at either
    exact either.symm

/-- A piece of the project between quotation marks. -/
theorem SpeaksDue.quoted (listed : entry ∈ catalogue standard) {front back : String}
    (undue : ∀ topic, isDue entry.name topic = false) (inFront : ∀ topic : Topic, topic.isIn front = false)
    (inBack : ∀ topic : Topic, topic.isIn back = false) (piece : String) :
    SpeaksDue entry.name (front ++ "\"") piece ("\"" ++ back ++ "- " ++ entry.message) := by
  refine ⟨fun topic => ?_, .inr undue⟩
  have parted : "\"" ++ back ++ "- " ++ entry.message = "\"" ++ (back ++ "- " ++ entry.message) := by
    simp only [String.append_assoc]
  rw [parted, isIn_quoted, isIn_dashed, isIn_message listed, inFront, inBack, undue,
    unnamed_of_undue listed undue]
  simp only [Bool.false_or, Bool.or_false]

/-- A message that is nothing but a piece of the project. -/
theorem SpeaksDue.whole (listed : entry ∈ catalogue standard) (undue : ∀ topic, isDue entry.name topic = false)
    (piece : String) : SpeaksDue entry.name "" piece "" := by
  refine ⟨fun topic => ?_, .inr undue⟩
  rw [unnamed_of_undue listed undue, undue, String.empty_append, String.append_empty]

/-- What a message about a rule of the catalogue speaks of. -/
theorem speaksDue_of_said (listed : entry ∈ catalogue standard) {number : Nat}
    (known : KnowsSuppressions file)
    (told : IsSaid (ruleOfEntry standard number entry) file before piece behind) :
    SpeaksDue entry.name before piece behind := by
  -- Fixed words are spelled out, so that only the names of the rules are left to try.
  cases told with
  | own => exact .plain listed (isIn_message listed)
  | anonymousExport ofTypescript asked =>
    obtain rfl : standard = .typescript := ofTypescript
    have heard : ∀ topic : Topic, topic.isIn "Anonymous default export " = (topic == .exports) :=
      isIn_of_spelled _ rfl (by decide +kernel)
    have due := forall_catalogue (fun standard name => standard == .typescript &&
      mentions "default-export" name) (fun name topic => !(topic == .exports) || isDue name topic)
        (by decide +kernel) listed asked
    exact .dashed listed fun topic => by rw [heard]; exact due topic
  | parameter ofTypescript asked =>
    obtain rfl : standard = .typescript := ofTypescript
    have undue := undue_of_asked (fun standard name => standard == .typescript &&
      mentions "any-type" name) (by decide +kernel) listed asked
    have inFront : ∀ topic : Topic, topic.isIn "Parameter " = false :=
      isIn_of_spelled _ rfl (by decide +kernel)
    have inBack : ∀ topic : Topic, topic.isIn " is typed as any " = false :=
      isIn_of_spelled _ rfl (by decide +kernel)
    exact .quoted listed undue inFront inBack _
  | suppression ofTypescript asked found =>
    obtain rfl : standard = .typescript := ofTypescript
    rcases known _ found with kind | kind <;> rw [kind]
    · have heard : ∀ topic : Topic, topic.isIn "@ts-ignore suppresses type checking " = false :=
        isIn_of_spelled _ rfl (by decide +kernel)
      exact .dashed listed fun topic => by rw [heard]; rfl
    · have heard : ∀ topic : Topic, topic.isIn "@ts-nocheck suppresses type checking " = false :=
        isIn_of_spelled _ rfl (by decide +kernel)
      exact .dashed listed fun topic => by rw [heard]; rfl
  | typeError ofTypescript asked =>
    obtain rfl : standard = .typescript := ofTypescript
    exact .whole listed (undue_of_asked (fun standard name => standard == .typescript &&
      mentions "type-error" name) (by decide +kernel) listed asked) _
  | classComponent ofReact asked =>
    obtain rfl : standard = .react := ofReact
    have undue := undue_of_asked (fun standard name => standard == .react &&
      mentions "class-component" name) (by decide +kernel) listed asked
    have inFront : ∀ topic : Topic, topic.isIn "Class component " = false :=
      isIn_of_spelled _ rfl (by decide +kernel)
    have inBack : ∀ topic : Topic, topic.isIn " " = false := isIn_of_spelled _ rfl (by decide +kernel)
    exact .quoted listed undue inFront inBack _
  | hook ofReact asked =>
    -- No rule of the catalogue for components asks about the directive.
    obtain rfl : standard = .react := ofReact
    exact absurd (forall_catalogue (fun standard name => standard == .react &&
      (mentions "use-client" name || mentions "hook" name)) (fun _ _ => false) (by decide +kernel)
        listed asked .directive) Bool.false_ne_true
  | serverData ofReact asked =>
    obtain rfl : standard = .react := ofReact
    have undue := undue_of_asked (fun standard name => standard == .react &&
      (mentions "usestate" name || mentions "server-data" name)) (by decide +kernel) listed asked
    have heard : ∀ topic : Topic, topic.isIn
        "Consider using Convex useQuery for server data instead of useState" = false :=
      isIn_of_spelled _ rfl (by decide +kernel)
    exact .plain listed fun topic => (heard topic).trans (undue topic).symm
  | directive ofNextjs asked =>
    obtain rfl : standard = .nextjs := ofNextjs
    have due := forall_catalogue (fun standard name => standard == .nextjs &&
      (mentions "use-client" name || mentions "directive" name)) (fun name topic =>
        (topic == .directive) == isDue name topic) (by decide +kernel) listed asked
    have heard : ∀ topic : Topic, topic.isIn
        "Missing \"use client\" directive - this component uses hooks" = (topic == .directive) :=
      isIn_of_spelled _ rfl (by decide +kernel)
    exact .plain listed fun topic => by rw [heard]; exact beq_iff_eq.mp (due topic)

/-! The suppressions of a parsed source. -/

/-- A parsed source knows its suppressions. -/
theorem knowsSuppressions_parse {path : Path} {source : List Char} {typeErrors : List Diagnostic}
    (parsed : SourceFile.parse path source typeErrors = .ok file) : KnowsSuppressions file := by
  obtain ⟨_, _, facts, _⟩ := exists_of_parse parsed
  intro fact member
  rw [facts] at member
  obtain ⟨node, _, said⟩ := List.mem_flatMap.mp member
  obtain ⟨found, listed, rfl⟩ := List.mem_map.mp said
  obtain ⟨_, _, _, _, spelled⟩ := directivesIn_spelled listed
  exact (directiveAt?_spelled spelled).1

/-! Whom the violations go to. -/

/-- The rule for return types is due to its own topic and to exports. -/
theorem isDue_returnTypes (topic : Topic) :
    isDue "explicit-return-type" topic = (topic == .exports || topic == .returnTypes) := by
  cases topic <;> decide

/-- Any other rule is due to its own topic only. -/
theorem isDue_eq {ruleName : String} (other : ruleName ≠ "explicit-return-type") (topic : Topic) :
    isDue ruleName topic = (Topic.ofRule? ruleName == some topic) := by
  rw [isDue, beq_false_of_ne other, Bool.and_false, Bool.or_false]

/-- A violation goes to its own fixer only, except that one about return types goes to the fixer for exports
where that finds something to do, and that a piece of the project in the message leads to any fixer of which it
speaks and that finds something to do. -/
theorem goesToOwn_of_speaksDue {ruleName : String} (named : violation.ruleName = ruleName)
    (about : violation.message = before ++ piece ++ behind) (speaks : SpeaksDue ruleName before piece behind)
    (text : List Char) : GoesToOwn ruleName violation text ↔
      (∀ topic : Topic, topic.isIn piece = true → topic.hasWork text = false) ∧
        (ruleName = "explicit-return-type" → Topic.exports.hasWork text = false) := by
  have claimed (topic : Topic) : ((topic.names? violation.ruleName || topic.isIn violation.message) &&
      topic.hasWork text) = ((isDue ruleName topic || topic.isIn piece) && topic.hasWork text) := by
    rw [named, about, speaks.topics]
  rw [goesToOwn_iff]
  simp only [claimed]
  rcases speaks.apart with rfl | undue
  · -- Only topics to which the rule is due come into question.
    simp only [isIn_empty, Bool.or_false, Bool.false_eq_true, false_implies, implies_true, true_and]
    rcases eq_or_ne ruleName "explicit-return-type" with rfl | other
    · have made : Topic.ofRule? "explicit-return-type" = some .returnTypes := by decide
      have always : Topic.returnTypes.hasWork text = true := rfl
      simp only [isDue_returnTypes, made, true_implies]
      cases work : Topic.exports.hasWork text with
      | false => simp [Topic.all, work, always]
      | true =>
        refine iff_of_false (fun own => ?_) Bool.noConfusion
        cases own .exports (by simp [Topic.all, work])
    · simp only [isDue_eq other]
      refine iff_of_true (fun topic first => ?_) fun same => absurd same other
      have tested := List.find?_some first
      exact beq_iff_eq.mp (Bool.and_eq_true_iff.mp tested).1
  · -- The rule is made for no topic, so nobody may claim the violation.
    have other : ruleName ≠ "explicit-return-type" := by
      rintro rfl
      exact absurd ((isDue_returnTypes .returnTypes).symm.trans (undue .returnTypes)) (by decide)
    have unmade (topic : Topic) : Topic.ofRule? ruleName ≠ some topic := by
      have none := undue topic
      rw [isDue_eq other] at none
      exact beq_eq_false_iff_ne.mp none
    simp only [undue, Bool.false_or, unmade, imp_false, other, false_implies, and_true]
    have listed (topic : Topic) : topic ∈ Topic.all := by cases topic <;> decide
    constructor
    · intro nobody topic spoken
      have unfound := List.find?_eq_none.mp (Option.eq_none_iff_forall_ne_some.mpr nobody) topic
        (listed topic)
      rwa [spoken, Bool.true_and, Bool.not_eq_true] at unfound
    · intro idle topic first
      have tested := List.find?_some first
      obtain ⟨spoken, work⟩ := Bool.and_eq_true_iff.mp tested
      rw [idle topic spoken] at work
      cases work

/-- Whoever fixes a violation is its first claimant. -/
theorem fixed_by_own {ruleName : String} {revised : List Char} (goes : GoesToOwn ruleName violation text)
    (made : fixed? defaultFixers text violation = some revised) :
    ∃ topic, Topic.ofRule? ruleName = some topic ∧ topic.fixer.fix violation text = .fixed revised := by
  have claimed := claimant_default violation text
  rw [fixed?, ← Changes.claimant_eq violation text _ claimed] at made
  cases first : Topic.all.find? fun topic =>
      (topic.names? violation.ruleName || topic.isIn violation.message) && topic.hasWork text with
  | none =>
    rw [first] at made
    cases made
  | some topic =>
    rw [first] at made
    refine ⟨topic, (goesToOwn_iff ruleName).mp goes topic first, ?_⟩
    dsimp only [Option.map_some] at made
    split at made
    · next text fixes => rw [fixes, Option.some.inj made]
    · cases made

/-- **Which fixer a violation goes to.** A violation of a rule of the catalogue in a parsed source speaks of
the topic that the rule is made for, of exports if the rule is the one for return types, and of anything that a
piece of the project in its message speaks of. So it goes to its own fixer, or to none, exactly if neither
exports nor that piece give another fixer something to do. -/
theorem goes_to_own_fixer_iff {path : Path} {source : List Char} {typeErrors : List Diagnostic} {number : Nat}
    {lineText : List Char} {filePath : String} (parsed : SourceFile.parse path source typeErrors = .ok file)
    (listed : entry ∈ catalogue standard)
    (reported : violation ∈ matchRule (ruleOfEntry standard number entry) file lineText filePath) :
    ∃ before piece behind, IsSaid (ruleOfEntry standard number entry) file before piece behind ∧
      violation.message = before ++ piece ++ behind ∧ ∀ text,
        (GoesToOwn entry.name violation text ↔
          (∀ topic : Topic, topic.isIn piece = true → topic.hasWork text = false) ∧
            (entry.name = "explicit-return-type" → Topic.exports.hasWork text = false)) ∧
          (GoesToOwn entry.name violation text → ∀ revised,
            fixed? defaultFixers text violation = some revised →
              ∃ topic, Topic.ofRule? entry.name = some topic ∧
                topic.fixer.fix violation text = .fixed revised) := by
  obtain ⟨before, piece, behind, told, about⟩ := allTell_matchRule _ file lineText filePath violation reported
  have speaks := speaksDue_of_said listed (knowsSuppressions_parse parsed) told
  have named : violation.ruleName = entry.name :=
    (allReports_matchRule _ file lineText filePath violation reported).ruleName
  exact ⟨before, piece, behind, told, about, fun text =>
    ⟨goesToOwn_of_speaksDue named about speaks text, fun goes revised made => fixed_by_own goes made⟩⟩

/-- An exported function without a return type before a default export. -/
def functionAndDefault : List Char := "export function a() { b(); }\nexport default class S {}\n".toList

/-- The rule for return types. -/
def returnTypeEntry : CatalogueEntry := (catalogue .typescript).getLast (by decide)

/-- The rule for return types is reported once in the example. -/
theorem exists_returnType_report : ∃ file violation,
    SourceFile.parse ⟨"/", ["a.ts"]⟩ functionAndDefault [] = .ok file ∧
      violation ∈ matchRule (ruleOfEntry .typescript 1 returnTypeEntry) file functionAndDefault "a.ts" ∧
        violation.ruleName = "explicit-return-type" ∧
          violation.message = "Exported functions should declare an explicit return type" := by
  -- The text is spelled out, so that it is not read off its bytes.
  have told : ∃ text, functionAndDefault = text ∧ (SourceFile.parse ⟨"/", ["a.ts"]⟩ text []).toOption.map
      (fun file => (matchRule (ruleOfEntry .typescript 1 returnTypeEntry) file text "a.ts").map
        fun violation => (violation.ruleName, violation.message)) =
          some [("explicit-return-type", "Exported functions should declare an explicit return type")] :=
    ⟨_, String.toList_ofList, by decide +kernel⟩
  obtain ⟨text, source, reported⟩ := told
  rw [source]
  obtain ⟨file, parsed, known⟩ := exists_of_parsed _ reported
  obtain ⟨violation, alone, same⟩ := List.map_eq_singleton_iff.mp known
  obtain ⟨named, about⟩ := Prod.mk.inj same
  exact ⟨file, violation, parsed, alone ▸ List.mem_singleton_self _, named, about⟩

/-- A pass over the exports of the example names the default one, and changes nothing more. -/
theorem exports_functionAndDefault : nameExports functionAndDefault ≠ functionAndDefault ∧
    nameExports functionAndDefault = "export function a() { b(); }\nexport class S {}\n".toList ∧
      nameExports (nameExports functionAndDefault) = nameExports functionAndDefault := by
  have passes : ∃ text once : List Char, functionAndDefault = text ∧
      "export function a() { b(); }\nexport class S {}\n".toList = once ∧
        (once != text && nameExports text == once && nameExports once == once) = true :=
    ⟨_, _, String.toList_ofList, String.toList_ofList, by decide +kernel⟩
  obtain ⟨text, once, source, result, both⟩ := passes
  obtain ⟨first, second⟩ := Bool.and_eq_true_iff.mp both
  obtain ⟨changed, first⟩ := Bool.and_eq_true_iff.mp first
  rw [source, result, beq_iff_eq.mp first]
  exact ⟨bne_iff_ne.mp changed, rfl, beq_iff_eq.mp second⟩

/-- What the fixer for exports does to a text that it changes. -/
theorem fix_changed (violation : Violation) (changed : nameExports text ≠ text) :
    exportFixer.fix violation text = .fixed (nameExports text) := if_neg changed

/-- The violation about the function goes to its own fixer once the default export is gone. -/
theorem returnType_goes_to_own_fixer : ∃ file violation,
    SourceFile.parse ⟨"/", ["a.ts"]⟩ functionAndDefault [] = .ok file ∧
      returnTypeEntry ∈ catalogue .typescript ∧
      violation ∈ matchRule (ruleOfEntry .typescript 1 returnTypeEntry) file functionAndDefault "a.ts" ∧
        GoesToOwn returnTypeEntry.name violation (nameExports functionAndDefault) := by
  obtain ⟨file, violation, parsed, reported, named, about⟩ := exists_returnType_report
  have listed : returnTypeEntry ∈ catalogue .typescript := List.getLast_mem _
  obtain ⟨before, piece, behind, told, _, goes⟩ := goes_to_own_fixer_iff parsed listed reported
  have idle : Topic.exports.hasWork (nameExports functionAndDefault) = false :=
    bne_eq_false_iff_eq.mpr exports_functionAndDefault.2.2
  refine ⟨file, violation, parsed, listed, reported, (goes _).1.mpr ⟨?_, fun _ => idle⟩⟩
  have speaks := speaksDue_of_said listed (knowsSuppressions_parse parsed) told
  rcases speaks.apart with rfl | undue
  · intro topic spoken
    rw [isIn_empty] at spoken
    cases spoken
  · have due : isDue returnTypeEntry.name .returnTypes = true := isDue_returnTypes .returnTypes
    rw [undue .returnTypes] at due
    cases due

/-- While it is there, the fixer for exports takes the violation about the function. -/
theorem returnType_goes_to_exports : ∃ file violation,
    SourceFile.parse ⟨"/", ["a.ts"]⟩ functionAndDefault [] = .ok file ∧
      returnTypeEntry ∈ catalogue .typescript ∧
      violation ∈ matchRule (ruleOfEntry .typescript 1 returnTypeEntry) file functionAndDefault "a.ts" ∧
        Changes.claimant? violation functionAndDefault defaultFixers = .ok (some exportFixer) ∧
          exportFixer ≠ returnTypeFixer ∧
            fixed? defaultFixers functionAndDefault violation =
              some "export function a() { b(); }\nexport class S {}\n".toList := by
  obtain ⟨file, violation, parsed, reported, named, about⟩ := exists_returnType_report
  have listed : returnTypeEntry ∈ catalogue .typescript := List.getLast_mem _
  obtain ⟨changed, made, _⟩ := exports_functionAndDefault
  have work : Topic.exports.hasWork functionAndDefault = true := bne_iff_ne.mpr changed
  have claimed : Changes.claimant? violation functionAndDefault defaultFixers = .ok (some exportFixer) := by
    have due (topic : Topic) : (topic.names? violation.ruleName || topic.isIn violation.message) =
        isDue "explicit-return-type" topic := by
      rw [named, about]
      exact (congrArg _ (isIn_message listed topic)).trans (isDue_of_names listed topic)
    rw [claimant_default]
    simp only [due, isDue_returnTypes]
    simp [Topic.all, work]
    rfl
  refine ⟨file, violation, parsed, listed, reported, claimed, fun same => ?_, ?_⟩
  · exact absurd (congrArg Fixer.kind same) (by decide)
  · rw [fixed?, ← Changes.claimant_eq violation _ _ claimed]
    dsimp only
    rw [fix_changed violation changed, made]

end Conformance.Fix
