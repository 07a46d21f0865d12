import Conformance.Proofs.Fix.ExportPatterns
import Mathlib.Logic.Function.Iterate

/-!
# Texts in which exports are settled

A pass over the exports of a text that changes anything takes a `default` in front of a blank away and makes
none. So a pass changes nothing exactly if there is nothing to rewrite for it, and passes come to an end.
-/

namespace Conformance.Fix

open Text Regex Pattern

/-! Counting the word that makes an export the default one. -/

/-- Whether a text begins with a word and a blank. -/
def beginsWord : (word text : List Char) → Bool
  | [], text => text.head?.any isBlank
  | _ :: _, [] => false
  | w :: word, c :: text => w == c && beginsWord word text

/-- How often `default` stands in front of a blank in a text. -/
def defaults : List Char → Nat
  | [] => 0
  | c :: text => (if beginsWord "default".toList (c :: text) then 1 else 0) + defaults text

variable {text front behind : List Char} {c d : Char}

/-- A word ends in front of a blank, whatever follows it. -/
theorem beginsWord_blank {word : List Char} (solid : ∀ w ∈ word, isBlank w = false) (first : isBlank c = true)
    (second : isBlank d = true) (text behind other : List Char) :
    beginsWord word (text ++ c :: behind) = beginsWord word (text ++ d :: other) := by
  induction word generalizing text with
  | nil =>
    cases text with
    | nil => simp [beginsWord, first, second]
    | cons e text => rfl
  | cons w word inductionHypothesis =>
    obtain ⟨filled, others⟩ := List.forall_mem_cons.mp solid
    cases text with
    | nil =>
      have apart {e : Char} (blank : isBlank e = true) : (w == e) = false := by
        rw [beq_eq_false_iff_ne]
        rintro rfl
        rw [filled] at blank
        cases blank
      simp [beginsWord, apart first, apart second]
    | cons e text =>
      simp only [List.cons_append, beginsWord]
      rw [inductionHypothesis others text]

/-- A blank divides the count. -/
theorem defaults_append_blank (blank : isBlank c = true) (text behind : List Char) :
    defaults (text ++ c :: behind) = defaults (text ++ [' ']) + defaults behind := by
  have none : "default".toList.any isBlank = false := by decide
  have solid : ∀ w ∈ "default".toList, isBlank w = false := by simpa using none
  have space : isBlank ' ' = true := by decide
  induction text with
  | nil =>
    have same := beginsWord_blank solid blank space [] behind []
    simp only [List.nil_append] at same
    simp only [List.nil_append, defaults, same, Nat.add_zero]
  | cons e text inductionHypothesis =>
    have same := beginsWord_blank solid blank space (e :: text) behind []
    simp only [List.cons_append] at same
    simp only [List.cons_append, defaults, same, inductionHypothesis, Nat.add_assoc]

/-- A part has no more than the whole. -/
theorem defaults_le_append (text behind : List Char) : defaults behind ≤ defaults (text ++ behind) := by
  induction text with
  | nil => exact Nat.le_refl _
  | cons e text inductionHypothesis => exact Nat.le_add_left_of_le inductionHypothesis

/-- The words of a default export have one. -/
theorem defaults_defaultWords (blank : isBlank c = true) (other : isBlank d = true)
    (front gap further behind : List Char) :
    defaults (front ++ "export".toList ++ [' ']) + 1 + defaults behind ≤
      defaults (front ++ ("export".toList ++ c :: (gap ++ ("default".toList ++ d :: (further ++ behind))))) := by
  have word : defaults ("default".toList ++ [' ']) = 1 := by decide
  have one := defaults_le_append gap ("default".toList ++ [' '])
  have rest := defaults_le_append further behind
  rw [← List.append_assoc, defaults_append_blank blank, ← List.append_assoc gap, defaults_append_blank other,
    List.append_assoc gap]
  omega

/-- What is behind nothing or behind a blank. -/
def BehindBlank (front : List Char) : Prop := front = [] ∨ ∃ c, front.getLast? = some c ∧ isBlank c = true

/-- The count is divided there. -/
theorem defaults_append (divided : BehindBlank front) (behind : List Char) :
    defaults (front ++ behind) = defaults front + defaults behind := by
  rcases divided with rfl | ⟨c, ending, blank⟩
  · exact (Nat.zero_add _).symm
  · obtain ⟨text, rfl⟩ := List.getLast?_eq_some_iff.mp ending
    rw [List.append_assoc, List.singleton_append, defaults_append_blank blank, defaults_append_blank blank]
    rfl

/-- A line begins behind a line feed, which is a blank. -/
theorem BeginsLine.behindBlank (line : BeginsLine front) : BehindBlank front := by
  rcases line with rfl | feed
  · exact .inl rfl
  · exact .inr ⟨'\n', feed, by decide⟩

/-- An indentation ends in a blank, or is none. -/
theorem BehindBlank.indented {indent : List Char} (divided : BehindBlank front)
    (blank : ∀ c ∈ indent, isBlank c = true) : BehindBlank (front ++ indent) := by
  cases ending : indent.getLast? with
  | none =>
    rw [List.getLast?_eq_none_iff.mp ending, List.append_nil]
    exact divided
  | some c =>
    refine .inr ⟨c, ?_, blank c (List.mem_of_getLast? ending)⟩
    rw [List.getLast?_append, ending]
    rfl

/-! What the passes do to the count. -/

/-- The named export that is put in the place of a default one. -/
def namedInline (found : Match) : List Char :=
  "export ".toList ++ groupText found 1 ++ [' '] ++ groupText found 2

/-- The named export in its words. -/
theorem namedInline_eq (found : Match) : namedInline found =
    "export".toList ++ ' ' :: (groupText found 1 ++ ' ' :: groupText found 2) := by
  have opened : "export ".toList = "export".toList ++ [' '] := by decide
  refine (congrArg (· ++ groupText found 1 ++ [' '] ++ groupText found 2) opened).trans ?_
  simp only [List.append_assoc, List.cons_append, List.nil_append]

/-- A default export of a named declaration has one more than the named one, whatever becomes of the text behind
it, if that has no more than before. -/
theorem defaults_namedInline {place : Place} {found : Match} {rest result : List Char}
    (there : FoundAt inlineDefault.ignoreCase inlineDefault.regex place found front rest)
    (fewer : ∀ front, defaults (front ++ result) ≤ defaults (front ++ rest)) (before : List Char) :
    defaults (before ++ (front ++ (namedInline found ++ result))) < defaults (before ++ place.ahead) := by
  obtain ⟨c, gap, d, further, e, last, split, first, second, third, _⟩ := found_inlineDefault there
  have words := defaults_defaultWords first second (before ++ front) gap further
    (groupText found 1 ++ e :: (last ++ (groupText found 2 ++ rest)))
  have kind := defaults_append_blank third (groupText found 1) (last ++ (groupText found 2 ++ rest))
  have skipped := defaults_le_append last (groupText found 2 ++ rest)
  have name := fewer (groupText found 2)
  have opened := defaults_append_blank (c := ' ') (by decide) (before ++ front ++ "export".toList)
    (groupText found 1 ++ ' ' :: (groupText found 2 ++ result))
  have spaced := defaults_append_blank (c := ' ') (by decide) (groupText found 1) (groupText found 2 ++ result)
  have made : before ++ (front ++ (namedInline found ++ result)) = (before ++ front ++ "export".toList) ++
      ' ' :: (groupText found 1 ++ ' ' :: (groupText found 2 ++ result)) := by
    rw [namedInline_eq]
    simp only [List.append_assoc, List.cons_append]
  have whole : before ++ place.ahead = (before ++ front) ++ ("export".toList ++ c :: (gap ++ ("default".toList ++
      d :: (further ++ (groupText found 1 ++ e :: (last ++ (groupText found 2 ++ rest))))))) := by
    rw [there.ahead, split]
    simp only [List.append_assoc, List.cons_append]
  rw [made, whole]
  omega

/-- Replaced default exports leave no more than before. The induction is on the matches. -/
theorem defaults_replaced {place : Place} {result : List Char}
    (replaced : Replaced inlineDefault namedInline place result) (before : List Char) :
    defaults (before ++ result) ≤ defaults (before ++ place.ahead) := by
  induction replaced generalizing before with
  | kept => exact Nat.le_refl _
  | changed there _ laterHypothesis => exact Nat.le_of_lt (defaults_namedInline there laterHypothesis before)

/-- The first pass leaves a text alone in which it finds nothing, and takes a `default` from any other one. -/
theorem nameInline_cases (text : List Char) :
    (inlineDefault.occursIn text = false ∧ nameInline text = text) ∨
      (inlineDefault.occursIn text = true ∧ defaults (nameInline text) < defaults text) := by
  rcases replaceAll_cases inlineDefault namedInline text with
    ⟨absent, same⟩ | ⟨found, front, rest, result, occurs, there, later, made⟩
  · exact .inl ⟨absent, same⟩
  · have fewer := defaults_namedInline there (defaults_replaced later) []
    have made : nameInline text = front ++ (namedInline found ++ result) := made
    rw [made]
    exact .inr ⟨occurs, fewer⟩

/-- Whether the first default export of a name in a text is moved to a declaration of that name. -/
def movesTrailing (text : List Char) : Bool :=
  match trailingDefault.search text with
  | none => false
  | some found =>
    let name := String.ofList (groupText found 1)
    (variableDeclaration name).occursIn (withoutMatch text found) ||
      (functionDeclaration name).occursIn (withoutMatch text found)

variable {found : Match} {rest : List Char}

/-- Without a default export of a name there is one `default` less. -/
theorem defaults_withoutMatch (there : FoundIn trailingDefault text found front rest) :
    defaults (withoutMatch text found) < defaults text := by
  obtain ⟨line, _, _, c, gap, d, further, tail, split, first, second⟩ := found_trailingDefault there
  obtain ⟨whole, start, stop⟩ := there.cut
  have divided := line.behindBlank
  have words := defaults_defaultWords first second [] gap further (groupText found 1 ++ (tail ++ rest))
  have skipped := defaults_le_append (groupText found 1 ++ tail) rest
  have spelled : found.text ++ rest = [] ++ ("export".toList ++ c :: (gap ++ ("default".toList ++
      d :: (further ++ (groupText found 1 ++ (tail ++ rest)))))) := by
    rw [split]
    simp only [List.append_assoc, List.cons_append, List.nil_append]
  rw [List.append_assoc] at skipped
  rw [withoutMatch, start, stop, defaults_append divided, whole, defaults_append divided, spelled]
  omega

/-- A word in front of a line of code brings no `default`. -/
theorem defaults_export (divided : BehindBlank front) (behind : List Char) :
    defaults (front ++ ("export ".toList ++ behind)) = defaults front + defaults behind := by
  have none : defaults ("export".toList ++ [' ']) = 0 := by decide
  have opened : "export ".toList ++ behind = "export".toList ++ ' ' :: behind := by
    rw [show "export ".toList = "export".toList ++ [' '] by decide, List.append_assoc, List.singleton_append]
  rw [defaults_append divided, opened, defaults_append_blank (by decide), none, Nat.zero_add]

/-- An exported variable has no more than the variable. -/
theorem defaults_exportedVariable {name : String} (letters : ∀ c ∈ name.toList, isWord c = true)
    (occurs : (variableDeclaration name).occursIn text = true) :
    defaults ((variableDeclaration name).replaceFirst (fun declared =>
      groupText declared 1 ++ "export ".toList ++ groupText declared 2 ++ [' '] ++ groupText declared 3) text) ≤
        defaults text := by
  obtain ⟨found, matched⟩ := Option.isSome_iff_exists.mp occurs
  obtain ⟨front, rest, there⟩ := foundIn_search matched
  obtain ⟨line, blank, c, gap, split, first, _⟩ := found_variableDeclaration letters there
  have divided := line.behindBlank.indented blank
  have skipped := defaults_le_append gap (groupText found 3 ++ rest)
  have whole : text = (front ++ groupText found 1) ++
      (groupText found 2 ++ c :: (gap ++ (groupText found 3 ++ rest))) := by
    rw [there.cut.1, split]
    simp only [List.append_assoc, List.cons_append]
  have made : (variableDeclaration name).replaceFirst (fun declared => groupText declared 1 ++
      "export ".toList ++ groupText declared 2 ++ [' '] ++ groupText declared 3) text =
        (front ++ groupText found 1) ++ ("export ".toList ++
          (groupText found 2 ++ ' ' :: (groupText found 3 ++ rest))) := by
    rw [replaceFirst_found matched there]
    simp only [List.append_assoc, List.cons_append, List.nil_append]
  rw [made, defaults_export divided, defaults_append_blank (by decide)]
  conv => rhs; rw [whole, defaults_append divided, defaults_append_blank first]
  omega

/-- An exported function has as many as the function. -/
theorem defaults_exportedFunction {name : String} (letters : ∀ c ∈ name.toList, isWord c = true)
    (occurs : (functionDeclaration name).occursIn text = true) :
    defaults ((functionDeclaration name).replaceFirst (fun declared =>
      groupText declared 1 ++ "export ".toList ++ groupText declared 2) text) = defaults text := by
  obtain ⟨found, matched⟩ := Option.isSome_iff_exists.mp occurs
  obtain ⟨front, rest, there⟩ := foundIn_search matched
  obtain ⟨line, blank, split, _⟩ := found_functionDeclaration letters there
  have divided := line.behindBlank.indented blank
  have whole : text = (front ++ groupText found 1) ++ (groupText found 2 ++ rest) := by
    rw [there.cut.1, split]
    simp only [List.append_assoc]
  have made : (functionDeclaration name).replaceFirst (fun declared => groupText declared 1 ++
      "export ".toList ++ groupText declared 2) text =
        (front ++ groupText found 1) ++ ("export ".toList ++ (groupText found 2 ++ rest)) := by
    rw [replaceFirst_found matched there]
    simp only [List.append_assoc]
  rw [made, defaults_export divided]
  conv => rhs; rw [whole, defaults_append divided]

/-- The second pass leaves a text alone in which it moves nothing, and takes a `default` from any other one. -/
theorem nameTrailing_cases (text : List Char) :
    (movesTrailing text = false ∧ nameTrailing text = text) ∨
      (movesTrailing text = true ∧ defaults (nameTrailing text) < defaults text) := by
  unfold movesTrailing nameTrailing
  cases matched : trailingDefault.search text with
  | none => exact .inl ⟨rfl, rfl⟩
  | some found =>
    obtain ⟨front, rest, there⟩ := foundIn_search matched
    have fewer := defaults_withoutMatch there
    have letters : ∀ c ∈ (String.ofList (groupText found 1)).toList, isWord c = true := by
      rw [String.toList_ofList]
      exact (found_trailingDefault there).2.1
    dsimp only
    split
    · next occurs =>
      exact .inr ⟨by rw [occurs, Bool.true_or],
        Nat.lt_of_le_of_lt (defaults_exportedVariable letters occurs) fewer⟩
    · next absent =>
      split
      · next occurs =>
        refine .inr ⟨by rw [occurs, Bool.or_true], ?_⟩
        rw [defaults_exportedFunction letters occurs]
        exact fewer
      · next missing =>
        rw [Bool.not_eq_true] at absent missing
        exact .inl ⟨by rw [absent, missing, Bool.or_false], rfl⟩

/-! Settled texts. -/

/-- Nothing is left to rewrite in a text: no default export of a named declaration, and the first one of a name,
if there is any, has no declaration that it could be moved to. -/
structure IsSettled (text : List Char) : Prop where
  inline : inlineDefault.occursIn text = false
  trailing : movesTrailing text = false

/-- A text that is settled stays as it is, and one that is not loses a `default`. -/
theorem nameExports_cases (text : List Char) : (IsSettled text ∧ nameExports text = text) ∨
    (¬ IsSettled text ∧ defaults (nameExports text) < defaults text) := by
  unfold nameExports
  rcases nameInline_cases text with ⟨absent, same⟩ | ⟨occurs, fewer⟩
  · rw [same]
    rcases nameTrailing_cases text with ⟨idle, same⟩ | ⟨moves, fewer⟩
    · exact .inl ⟨⟨absent, idle⟩, same⟩
    · refine .inr ⟨fun settled => ?_, fewer⟩
      rw [settled.trailing] at moves
      cases moves
  · refine .inr ⟨fun settled => ?_, ?_⟩
    · rw [settled.inline] at occurs
      cases occurs
    · rcases nameTrailing_cases (nameInline text) with ⟨_, same⟩ | ⟨_, less⟩
      · rw [same]
        exact fewer
      · exact Nat.lt_trans less fewer

/-- A pass changes nothing exactly in a settled text. -/
theorem nameExports_eq_iff (text : List Char) : nameExports text = text ↔ IsSettled text := by
  rcases nameExports_cases text with ⟨settled, same⟩ | ⟨unsettled, fewer⟩
  · exact iff_of_true same settled
  · refine iff_of_false (fun same => ?_) unsettled
    rw [same] at fewer
    exact Nat.lt_irrefl _ fewer

/-- As many passes as there are `default`s settle a text. The induction is on the passes. -/
theorem settled_iterate (passes : Nat) (enough : defaults text ≤ passes) :
    IsSettled (nameExports^[passes] text) := by
  induction passes generalizing text with
  | zero =>
    rcases nameExports_cases text with ⟨settled, _⟩ | ⟨_, fewer⟩
    · exact settled
    · omega
  | succ passes inductionHypothesis =>
    rw [Function.iterate_succ_apply]
    rcases nameExports_cases text with ⟨settled, same⟩ | ⟨_, fewer⟩
    · rw [same]
      have fixed : nameExports^[passes] text = text := Function.iterate_fixed same passes
      rwa [fixed]
    · exact inductionHypothesis (by omega)

/-- A violation about a default export. -/
def defaultExportReport : Violation :=
  ⟨"TS-003", "lib/a.ts", 1, 1, .warning, "", "", none, "no-default-export"⟩

/-- The fixer claims no violation on a text exactly if the text is settled. -/
theorem claims_none_iff (text : List Char) :
    (∀ violation, exportFixer.claims violation text = .ok false) ↔ IsSettled text := by
  rw [← nameExports_eq_iff]
  constructor
  · intro unclaimed
    have claimed := unclaimed defaultExportReport
    have about : isAboutExports defaultExportReport = true := by decide
    have answer : (isAboutExports defaultExportReport && nameExports text != text) = false :=
      Except.ok.inj claimed
    rwa [about, Bool.true_and, bne_eq_false_iff_eq] at answer
  · intro same violation
    rw [exportFixer]
    simp [same]

/-- **When a second pass is idle.** After a pass over a text the fixer claims nothing any more, and would change
nothing, exactly if the text is settled then. A pass that changes a text leaves fewer `default`s in front of a
blank, so that as many passes as there are of them settle it, and one pass does if there is one. -/
theorem second_pass_idle_iff (text : List Char) :
    ((∀ violation, exportFixer.claims violation (nameExports text) = .ok false) ↔
        IsSettled (nameExports text)) ∧
      (nameExports (nameExports text) = nameExports text ↔ IsSettled (nameExports text)) ∧
        (nameExports text ≠ text → defaults (nameExports text) < defaults text) ∧
          ∀ passes, defaults text ≤ passes → IsSettled (nameExports^[passes] text) := by
  refine ⟨claims_none_iff _, nameExports_eq_iff _, fun changed => ?_, fun passes => settled_iterate passes⟩
  rcases nameExports_cases text with ⟨_, same⟩ | ⟨_, fewer⟩
  · exact absurd same changed
  · exact fewer

/-- A default export of a name behind its declaration. -/
def singleDefault : List Char := "const a = 1;\nexport default a;\n".toList

/-- One pass settles it. -/
theorem singleDefault_settled : defaults singleDefault ≤ 1 ∧ IsSettled (nameExports^[1] singleDefault) := by
  have one : defaults singleDefault ≤ 1 := by decide +kernel
  exact ⟨one, (second_pass_idle_iff singleDefault).2.2.2 1 one⟩

/-- A default export of a name, and another one in a comment. -/
def commentedDefault : List Char :=
  "/*\nexport default a;\n*/\nconst a = 1;\nconst b = 2;\nexport default b;\n".toList

/-- One pass moves the one in the comment, and the next one the other. -/
theorem commentedDefault_moved_later :
    exportFixer.fix defaultExportReport commentedDefault =
        .fixed "/*\n*/\nexport const a = 1;\nconst b = 2;\nexport default b;\n".toList ∧
      exportFixer.claims defaultExportReport (nameExports commentedDefault) = .ok true ∧
        nameExports (nameExports commentedDefault) ≠ nameExports commentedDefault := by
  -- The texts are spelled out, so that they are not read off their bytes.
  have passes : ∃ text once : List Char, commentedDefault = text ∧
      "/*\n*/\nexport const a = 1;\nconst b = 2;\nexport default b;\n".toList = once ∧
        (Outcome.ofChange text (nameExports text) == .fixed once && nameExports text == once &&
          nameExports once != once) = true :=
    ⟨_, _, String.toList_ofList, String.toList_ofList, by decide +kernel⟩
  obtain ⟨text, once, source, result, both⟩ := passes
  obtain ⟨first, second⟩ := Bool.and_eq_true_iff.mp both
  obtain ⟨changes, first⟩ := Bool.and_eq_true_iff.mp first
  have about : isAboutExports defaultExportReport = true := by decide
  rw [source, result, beq_iff_eq.mp first]
  refine ⟨beq_iff_eq.mp changes, ?_, bne_iff_ne.mp second⟩
  rw [exportFixer]
  dsimp only
  rw [about, second]
  rfl

end Conformance.Fix
