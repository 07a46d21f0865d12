import Conformance.Fix.Directive
import Conformance.Matching.Checks
import Conformance.Proofs.Failing
import Conformance.Proofs.Syntax.FirstStatement
import Conformance.Proofs.Text.Parts

/-!
# Where the directive is added

The directive is added in front of the first line that neither is blank nor begins like a comment. The
reader looks for it in the first statement. Both are the same place exactly if the lines in front of it hold
no token: a comment with code behind it on its line, and a comment over several lines that is not closed in
front, lead the reader elsewhere.
-/

namespace Conformance.Fix

open Text Syntax Matching

/-- The lines in front of the first line of code, with their ends. -/
def leading (text : List Char) : List Char :=
  ((splitLines text).take (firstCodeLine (splitLines text))).flatMap (· ++ ['\n'])

/-- The lines from the first line of code on. -/
def remaining (text : List Char) : List Char :=
  joinLines ((splitLines text).drop (firstCodeLine (splitLines text)))

/-! Lines in front and lines behind. -/

/-- Lines in front of others have their ends. -/
theorem joinLines_append (front : List (List Char)) {back : List (List Char)} (filled : back ≠ []) :
    joinLines (front ++ back) = front.flatMap (· ++ ['\n']) ++ joinLines back := by
  induction front with
  | nil => rfl
  | cons line front inductionHypothesis =>
    have further : front ++ back ≠ [] := List.append_ne_nil_of_right_ne_nil front filled
    rw [List.cons_append, joinLines_cons line further, inductionHypothesis, List.flatMap_cons,
      List.append_assoc, List.append_assoc]
    rfl

/-- Lines with their ends are whole lines. -/
theorem ended_flatMap (lines : List (List Char)) : Ended (lines.flatMap (· ++ ['\n'])) := by
  rcases List.eq_nil_or_concat lines with rfl | ⟨front, line, rfl⟩
  · exact nofun
  · intro c last
    rw [List.concat_eq_append, List.flatMap_append, List.flatMap_singleton, ← List.append_assoc,
      List.getLast?_concat] at last
    exact (Option.some.inj last).symm

/-- A line of code is one of the lines. -/
theorem firstCodeFrom_lt {lines : List (List Char)} {position found : Nat}
    (finds : firstCodeFrom position lines = some found) : found < position + lines.length := by
  induction lines generalizing position with
  | nil => cases finds
  | cons line rest inductionHypothesis =>
    rw [firstCodeFrom] at finds
    split at finds
    · have further := inductionHypothesis finds
      rw [List.length_cons]
      omega
    · cases finds
      exact Nat.lt_add_of_pos_right (Nat.succ_pos _)

/-- There are lines from the first line of code on. -/
theorem drop_firstCodeLine (text : List Char) :
    (splitLines text).drop (firstCodeLine (splitLines text)) ≠ [] := by
  have filled : splitLines text ≠ [] := splitAt_ne_nil text
  rw [Ne, List.drop_eq_nil_iff, Nat.not_le, firstCodeLine]
  cases finds : firstCodeFrom 0 (splitLines text) with
  | none => exact List.length_pos_iff.mpr filled
  | some found => simpa using firstCodeFrom_lt finds

/-- A text is its leading lines and the remaining ones. -/
theorem leading_append_remaining (text : List Char) : leading text ++ remaining text = text := by
  rw [leading, remaining, ← joinLines_append _ (drop_firstCodeLine text), List.take_append_drop,
    joinLines_splitLines]

/-- The directive is put between the leading lines and the remaining ones. -/
theorem addDirective_eq (text : List Char) :
    addDirective text = leading text ++ (directiveLine ++ ['\n', '\n'] ++ remaining text) := by
  unfold addDirective
  dsimp only
  rw [List.append_assoc, joinLines_append _ (List.append_ne_nil_of_left_ne_nil (List.cons_ne_nil _ _) _),
    joinLines_append _ (drop_firstCodeLine text), leading, remaining]
  simp

/-! What the reader finds. -/

/-- Whether the reader finds the client directive in the first statement of a text. -/
def findsClient (dialect : Dialect) (text : List Char) : Bool := (directives text (treeSoFar dialect text)).1

/-- A source that is parsed uses the client directive if the reader finds it. -/
theorem usesClient_of_parse {path : Path} {text : List Char} {typeErrors : List Diagnostic}
    {file : SourceFile} (parsed : SourceFile.parse path text typeErrors = .ok file) :
    ∃ dialect, file.facts.usesClient = findsClient dialect text := by
  unfold SourceFile.parse at parsed
  split at parsed
  · cases parsed
  · next dialect _ =>
    split at parsed
    · cases parsed
    · next tree read =>
      cases parsed
      refine ⟨dialect, ?_⟩
      rw [findsClient, ← treeSoFar_of_readTree read]
      rfl

/-- A source that uses the client directive misses none. -/
theorem no_missing_directive {file : SourceFile} (uses : file.facts.usesClient = true) (rule : Rule)
    (filePath : String) :
    checkHookDirective rule file filePath = [] ∧ checkDirective rule file filePath = [] := by
  constructor
  · unfold checkHookDirective
    rw [uses]
    split <;> rfl
  · unfold checkDirective
    rw [uses, Bool.not_true, Bool.and_false, Bool.false_and]
    rfl

variable {source fixed : List Char} {violation : Violation}

/-- The directive behind leading lines without a token is found. -/
theorem findsClient_of_leading (only : firstCharacter? (leading source) = none) (dialect : Dialect) :
    findsClient dialect (addDirective source) = true := by
  have ordinary : "use client".toList.all isOrdinary = true := by decide +kernel
  have leads := skips_of_firstCharacter?_eq_none only (ended_flatMap _)
    (directiveLine ++ ['\n', '\n'] ++ remaining source)
  rw [findsClient, addDirective_eq, directives_quoted dialect leads ordinary]
  decide +kernel

/-- Behind a token the directive is not found, unless the text itself begins with a quoted text. -/
theorem leading_of_findsClient {dialect : Dialect}
    (finds : findsClient dialect (addDirective source) = true) :
    firstCharacter? (leading source) = none ∨ ∃ c ∈ ['"', '\'', '#'], firstCharacter? source = some c := by
  by_contra neither
  obtain ⟨token, unlike⟩ := not_or.mp neither
  have same : firstCharacter? (addDirective source) = firstCharacter? source := by
    rw [addDirective_eq, firstCharacter?_insert token (ended_flatMap _) (by decide +kernel)
      (by decide +kernel), leading_append_remaining]
  have unquoted : ∀ c ∈ firstCharacter? (addDirective source), c ≠ '"' ∧ c ≠ '\'' ∧ c ≠ '#' := by
    intro c first
    rw [same] at first
    simpa using fun listed => unlike ⟨c, listed, first⟩
  rw [findsClient, directives_treeSoFar unquoted] at finds
  cases finds

/-- A hook that is called without a directive. -/
def missingDirective : Violation :=
  ⟨"nex-001", "a.tsx", 1, 1, .error, "", "", none, "missing-use-client-directive"⟩

/-- A call of a hook behind a line that is a comment. -/
def callBehindComment : List Char := "/* a */\nuseState(0);".toList

/-- A call of a hook behind a line that begins with a comment and goes on with code. -/
def callBehindImport : List Char := "/* a */ import \"r\";\nuseState(0);".toList

/-- A source that is parsed, with what is known about it. -/
theorem exists_of_parsed {τ : Type} {path : Path} {text : List Char} {typeErrors : List Diagnostic}
    {known : τ} (test : SourceFile → τ)
    (told : (SourceFile.parse path text typeErrors).toOption.map test = some known) :
    ∃ file, SourceFile.parse path text typeErrors = .ok file ∧ test file = known :=
  exists_of_told test told

end Conformance.Fix

/-!
## The directive among the lines of a text

The fixer puts two lines, the directive and a blank one, into a text without a directive. They stand in front
of the first line of code, or at the top of a text without one. The directive is a line of code itself, so it is
the first one afterwards, and there is nothing to add any more.
-/

namespace Conformance.Fix

open Text

variable {front back : List (List Char)} {line : List Char}

/-! The first line of code. -/

/-- Lines without code are passed over. -/
theorem firstCodeFrom_append (idle : ∀ other ∈ front, isIdleLine (trim other) = true) (position : Nat) :
    firstCodeFrom position (front ++ back) = firstCodeFrom (position + front.length) back := by
  induction front generalizing position with
  | nil => rfl
  | cons other front inductionHypothesis =>
    obtain ⟨first, others⟩ := List.forall_mem_cons.mp idle
    rw [List.cons_append, firstCodeFrom, if_pos first, inductionHypothesis others, List.length_cons,
      Nat.add_right_comm, Nat.add_assoc]

/-- The search stops at a line of code. -/
theorem firstCodeFrom_code (code : isIdleLine (trim line) = false) (position : Nat) :
    firstCodeFrom position (line :: back) = some position := by
  rw [firstCodeFrom, code, if_neg Bool.false_ne_true]

/-- Lines in front of a line of code, or no code at all. -/
theorem exists_code_or_idle (lines : List (List Char)) :
    (∃ front line back, lines = front ++ line :: back ∧ (∀ other ∈ front, isIdleLine (trim other) = true) ∧
      isIdleLine (trim line) = false) ∨ ∀ line ∈ lines, isIdleLine (trim line) = true := by
  induction lines with
  | nil => exact .inr (List.forall_mem_nil _)
  | cons first lines inductionHypothesis =>
    cases idle : isIdleLine (trim first) with
    | false => exact .inl ⟨[], first, lines, rfl, List.forall_mem_nil _, idle⟩
    | true =>
      rcases inductionHypothesis with ⟨front, line, back, rfl, others, code⟩ | others
      · exact .inl ⟨first :: front, line, back, rfl, List.forall_mem_cons.mpr ⟨idle, others⟩, code⟩
      · exact .inr (List.forall_mem_cons.mpr ⟨idle, others⟩)

/-- The first line of code stands behind the lines without code. -/
theorem firstCodeLine_append (idle : ∀ other ∈ front, isIdleLine (trim other) = true)
    (code : isIdleLine (trim line) = false) : firstCodeLine (front ++ line :: back) = front.length := by
  rw [firstCodeLine, firstCodeFrom_append idle, firstCodeFrom_code code, Nat.zero_add]
  rfl

/-- Without code the top is taken. -/
theorem firstCodeLine_idle {lines : List (List Char)}
    (idle : ∀ line ∈ lines, isIdleLine (trim line) = true) : firstCodeLine lines = 0 := by
  have none : firstCodeFrom 0 (lines ++ []) = firstCodeFrom (0 + lines.length) [] :=
    firstCodeFrom_append idle 0
  rw [List.append_nil] at none
  rw [firstCodeLine, none]
  rfl

/-! The line of the directive. -/

/-- The directive is code. -/
theorem directiveLine_code : isIdleLine (trim directiveLine) = false := by decide

/-- The line of the directive is one. -/
theorem isDirectiveLine_directiveLine : isDirectiveLine directiveLine = true := by decide

/-- A text whose first line of code is the directive has one. -/
theorem hasDirective_of_first {text : List Char} (cut : splitLines text = front ++ directiveLine :: back)
    (idle : ∀ other ∈ front, isIdleLine (trim other) = true) : hasDirective text = true := by
  unfold hasDirective
  dsimp only
  rw [cut, firstCodeLine_append idle directiveLine_code, List.getElem?_append_right (Nat.le_refl _),
    Nat.sub_self]
  exact isDirectiveLine_directiveLine

/-- Two lines more than before. -/
theorem splitLines_addDirective (text : List Char) :
    splitLines (addDirective text) =
      (splitLines text).take (firstCodeLine (splitLines text)) ++ [directiveLine, []] ++
        (splitLines text).drop (firstCodeLine (splitLines text)) := by
  have whole : ∀ piece ∈ splitLines text, '\n' ∉ piece := fun piece => not_mem_of_mem_splitAt
  refine splitLines_joinLines (by simp) fun piece member => ?_
  rw [List.append_assoc, List.mem_append, List.mem_append] at member
  rcases member with before | inserted | behind
  · exact whole piece (List.mem_of_mem_take before)
  · rcases List.mem_pair.mp inserted with rfl | rfl <;> decide
  · exact whole piece (List.mem_of_mem_drop behind)

/-- **The directive is inserted once.** A text without a directive gets the directive and a blank line in front
of its first line of code, behind blank lines and comments only, or at its top if it has no code. All other
lines stay as they are. The result has a directive, so no violation is claimed on it, and it is left
unchanged. -/
theorem directive_inserted {text : List Char} (lacks : hasDirective text = false) (violation : Violation) :
    ∃ fixed front back, directiveFixer.fix violation text = .fixed fixed ∧
      splitLines text = front ++ back ∧ splitLines fixed = front ++ [directiveLine, []] ++ back ∧
      (∀ line ∈ front, isIdleLine (trim line) = true) ∧
      ((∃ line ∈ back.head?, isIdleLine (trim line) = false) ∨
        front = [] ∧ ∀ line ∈ back, isIdleLine (trim line) = true) ∧
      hasDirective fixed = true ∧
      ∀ other, directiveFixer.claims other fixed = .ok false ∧ directiveFixer.fix other fixed = .unchanged := by
  have applied : directiveFixer.fix violation text = .fixed (addDirective text) := by
    dsimp only [directiveFixer]
    rw [lacks, if_neg Bool.false_ne_true]
  have lines := splitLines_addDirective text
  have settled (has : hasDirective (addDirective text) = true) (other : Violation) :
      directiveFixer.claims other (addDirective text) = .ok false ∧
        directiveFixer.fix other (addDirective text) = .unchanged := by
    dsimp only [directiveFixer]
    rw [has, Bool.not_true, Bool.and_false, Bool.false_and]
    exact ⟨rfl, if_pos rfl⟩
  rcases exists_code_or_idle (splitLines text) with ⟨front, line, back, cut, idle, code⟩ | idle
  · rw [cut, firstCodeLine_append idle code, List.take_left, List.drop_left] at lines
    have has : hasDirective (addDirective text) = true :=
      hasDirective_of_first (lines.trans (List.append_assoc ..)) idle
    exact ⟨addDirective text, front, line :: back, applied, cut, lines, idle, .inl ⟨line, rfl, code⟩, has,
      settled has⟩
  · rw [firstCodeLine_idle idle, List.take_zero, List.drop_zero] at lines
    have begins : splitLines (addDirective text) = [] ++ directiveLine :: ([] :: splitLines text) := lines
    have has : hasDirective (addDirective text) = true := hasDirective_of_first begins (List.forall_mem_nil _)
    exact ⟨addDirective text, [], splitLines text, applied, rfl, lines, List.forall_mem_nil _,
      .inr ⟨rfl, idle⟩, has, settled has⟩

/-- A call of a hook behind a comment, with carriage returns, and a directive further down. -/
def callBeforeDirective : List Char := "// a\r\n\r\nuseState(0);\r\n\"use client\";\r\n".toList

/-- The directive further down does not count, and the carriage returns stay. -/
theorem directive_inserted_behind_comment :
    hasDirective callBeforeDirective = false ∧
      ∃ fixed, directiveFixer.fix missingDirective callBeforeDirective = .fixed fixed ∧
        splitLines fixed = ["// a\r".toList, "\r".toList, directiveLine, [], "useState(0);\r".toList,
          "\"use client\";\r".toList, []] ∧
        ∀ other, directiveFixer.claims other fixed = .ok false ∧
          directiveFixer.fix other fixed = .unchanged := by
  have lacks : hasDirective callBeforeDirective = false := by decide +kernel
  obtain ⟨fixed, _, _, applied, _, _, _, _, _, settled⟩ := directive_inserted lacks missingDirective
  have known : directiveFixer.fix missingDirective callBeforeDirective =
      .fixed (addDirective callBeforeDirective) := by decide +kernel
  obtain rfl : fixed = addDirective callBeforeDirective := Outcome.fixed.inj (applied.symm.trans known)
  exact ⟨lacks, _, applied, by decide +kernel, settled⟩

/-- A text without code has the directive at its top. -/
example : addDirective "// a\n".toList = "\"use client\";\n\n// a\n".toList := by
  decide +kernel

end Conformance.Fix
