import Conformance.Compiler.Check
import Conformance.Proofs.Audit.Ordering
import Conformance.Proofs.Number.Digits
import Conformance.Proofs.Pattern.Running
import Conformance.Proofs.Text.Lines
import Mathlib.Data.Nat.Find

/-!
# Messages that are read back

The compiler prints a message as one line: file, line and column in parentheses, category, code and
words. Parentheses may also stand in the file, so the line is read from the left only as far as the
first parenthesis with two numbers and a colon behind it. Among lines of any other form, and with
numbers that are not too long to be read, every message is found again, and the messages about one
file are together whichever way the file is written.
-/

namespace Conformance.Compiler

open Syntax Text Regex

/-- The categories of messages. -/
inductive Category where
  | error
  | warning
  deriving Repr, DecidableEq

/-- The name of a category. -/
def Category.name : Category → List Char
  | .error => ['e', 'r', 'r', 'o', 'r']
  | .warning => ['w', 'a', 'r', 'n', 'i', 'n', 'g']

/-- A run of decimal digits of any script. -/
def IsDigitRun (text : List Char) : Prop := text ≠ [] ∧ ∀ c ∈ text, isDecimalDigit c = true

instance (text : List Char) : Decidable (IsDigitRun text) :=
  have := List.decidableBAll (fun c => isDecimalDigit c = true) text
  inferInstanceAs (Decidable (_ ∧ _))

/-- What stands behind the file of a message. -/
def layoutBehind (line column : List Char) (category : Category) (code words : List Char) : List Char :=
  '(' :: (line ++ ',' :: (column ++ ')' :: ':' :: ' ' :: (category.name ++ ' ' ::
    ('T' :: 'S' :: code ++ ':' :: ' ' :: words))))

/-- The parts of a message in their places. -/
def layout (file line column : List Char) (category : Category) (code words : List Char) : List Char :=
  file ++ layoutBehind line column category code words

/-- A text is a message with the given parts. -/
structure IsMessage (text file line column : List Char) (category : Category) (code words : List Char) :
    Prop where
  whole : text = layout file line column category code words
  file_ne_nil : file ≠ []
  line_digits : IsDigitRun line
  column_digits : IsDigitRun column
  code_digits : IsDigitRun code

/-- A text has the form of a message. -/
def HasForm (text : List Char) : Prop :=
  ∃ file line column category code words, IsMessage text file line column category code words

/-- A text is read as a message with the given parts: with no other parts the file is shorter. -/
structure IsReadAs (text file line column : List Char) (category : Category) (code words : List Char) :
    Prop extends IsMessage text file line column category code words where
  shortest : ∀ {other line column category code words},
    IsMessage text other line column category code words → file.length ≤ other.length

/-- The mark that ends the numbers of a message. -/
def numbersEnd : List Char := [')', ':', ' ']

/-- A message as it is printed. -/
structure PrintedMessage where
  file : List Char
  line : Nat
  column : Nat
  category : Category
  /-- The digits of the code. -/
  code : List Char
  words : List Char
  file_ne_nil : file ≠ []
  file_begins : ∀ c ∈ file.head?, isBlank c = false
  file_oneLine : OneLine file
  file_open : ¬ numbersEnd <:+: file
  code_digits : IsDigitRun code
  words_ne_nil : words ≠ []
  words_oneLine : OneLine words
  words_end : ∀ c ∈ words.getLast?, isBlank c = false

namespace PrintedMessage

/-- The line of a message. -/
def text (message : PrintedMessage) : List Char :=
  layout message.file (Number.digits message.line) (Number.digits message.column) message.category
    message.code message.words

end PrintedMessage

/-- The expression for a run of digits. -/
def digitsExpression : Regex := .loop (.oneOf false [.digit false]) 1 none true

/-- The expression for the name of a category. -/
def categoryExpression : Regex :=
  .either (.seq (.char 'e') (.seq (.char 'r') (.seq (.char 'r') (.seq (.char 'o') (.char 'r')))))
    (.seq (.char 'w') (.seq (.char 'a') (.seq (.char 'r') (.seq (.char 'n') (.seq (.char 'i')
      (.seq (.char 'n') (.char 'g')))))))

/-- The expression for what stands behind the file of a message. -/
def tailExpression : Regex :=
  .seq (.char '(') (.seq (.group 2 digitsExpression) (.seq (.char ',')
    (.seq (.group 3 digitsExpression) (.seq (.char ')') (.seq (.char ':') (.seq (.char ' ')
      (.seq (.group 4 categoryExpression) (.seq (.char ' ')
        (.seq (.group 5 (.seq (.char 'T') (.seq (.char 'S') digitsExpression)))
          (.seq (.char ':') (.seq (.char ' ') (.seq (.group 6 (.loop .anyChar 0 none true))
            .textEnd))))))))))))

/-- The form of messages in its parts. -/
theorem messageForm_eq :
    messageForm.ignoreCase = false ∧
      messageForm.regex = .seq .textStart (.seq (.group 1 (.loop .anyChar 1 none false)) tailExpression) := by
  decide +kernel

/-- A run of digits is read as one. -/
theorem isDigitRun_of_reads {text : List Char} (reads : Reads false digitsExpression text) :
    IsDigitRun text := by
  have single (part : List Char) (one : Reads false (.oneOf false [.digit false]) part) :
      ∃ c, part = [c] ∧ isDecimalDigit c = true := by
    cases one with
    | oneOf member => exact ⟨_, rfl, by simpa [itemMatches] using member⟩
  obtain ⟨enough, all⟩ := reads_loop single reads
  exact ⟨List.ne_nil_of_length_pos enough, all⟩

/-- The name of a category is read as one. -/
theorem category_of_reads {text : List Char} (reads : Reads false categoryExpression text) :
    ∃ category : Category, text = category.name := by
  rcases reads_either_iff.mp reads with word | word
  · have name : text = ['e', 'r', 'r', 'o', 'r'] := by
      simpa [reads_seq_iff, reads_char_iff] using word
    exact ⟨.error, name⟩
  · have name : text = ['w', 'a', 'r', 'n', 'i', 'n', 'g'] := by
      simpa [reads_seq_iff, reads_char_iff] using word
    exact ⟨.warning, name⟩

/-- What is read behind the file has the parts of a message. -/
theorem layout_of_reads {text : List Char} (reads : Reads false tailExpression text) :
    ∃ line column category code words, text = layoutBehind line column category code words ∧
      IsDigitRun line ∧ IsDigitRun column ∧ IsDigitRun code := by
  simp only [tailExpression, reads_seq_iff, reads_group_iff, reads_char_iff] at reads
  obtain ⟨_, _, rfl, rfl, line, _, rfl, lineReads, _, _, rfl, rfl, column, _, rfl, columnReads,
    _, _, rfl, rfl, _, _, rfl, rfl, _, _, rfl, rfl, name, _, rfl, categoryReads, _, _, rfl, rfl,
    _, _, rfl, ⟨_, _, rfl, rfl, _, code, rfl, rfl, codeReads⟩, _, _, rfl, rfl, _, _, rfl, rfl,
    words, ending, rfl, _, _⟩ := reads
  obtain ⟨category, rfl⟩ := category_of_reads categoryReads
  refine ⟨line, column, category, code, words ++ ending, ?_, isDigitRun_of_reads lineReads,
    isDigitRun_of_reads columnReads, isDigitRun_of_reads codeReads⟩
  simp [layoutBehind]

/-- A text that the form of messages matches has it. -/
theorem hasForm_of_match {text : List Char} {found : Match}
    (matched : messageForm.matchStart text = some found) : HasForm text := by
  rw [Pattern.matchStart, matchAt, messageForm_eq.1, messageForm_eq.2] at matched
  obtain ⟨_, rest, _, ahead, reads, _⟩ := leads_run matched
  obtain ⟨_, _, rfl, start, behind⟩ := reads_seq_iff.mp reads
  obtain ⟨file, _, rfl, fileReads, tailReads⟩ := reads_seq_iff.mp behind
  obtain ⟨line, column, category, code, words, rfl, parts⟩ := layout_of_reads tailReads
  have single (part : List Char) (one : Reads false .anyChar part) : ∃ c, part = [c] ∧ True := by
    cases one with
    | anyChar within => exact ⟨_, rfl, trivial⟩
  have filled := (reads_loop single (reads_group_iff.mp fileReads)).1
  cases start with
  | textStart =>
    refine ⟨file, line, column, category, code, words ++ rest, ?_,
      List.ne_nil_of_length_pos filled, parts.1, parts.2.1, parts.2.2⟩
    rw [show text = _ from ahead]
    simp [layout, layoutBehind]

/-- Digits are no parentheses. -/
theorem IsDigitRun.parenthesis_not_mem {text : List Char} (run : IsDigitRun text) : '(' ∉ text := by
  intro member
  exact absurd (run.2 '(' member) (by decide)

/-- If the file of a message has no end of numbers in it, no other parts begin inside the file: their
numbers would end inside it or go beyond its parenthesis. -/
theorem no_layout_inside {before behind : List Char} (opened : ¬ numbersEnd <:+: before ++ behind)
    (filled : behind ≠ []) {line column inner second : List Char} {category other : Category}
    {code words number more : List Char} (innerDigits : IsDigitRun inner)
    (secondDigits : IsDigitRun second) :
    behind ++ layoutBehind line column category code words ≠
      layoutBehind inner second other number more := by
  intro ahead
  obtain ⟨c, later, rfl⟩ := List.exists_cons_of_ne_nil filled
  -- Both numbers and their end, up to which the two readings are compared.
  let numbers := inner ++ ',' :: second ++ numbersEnd
  have free : '(' ∉ numbers := by
    simp [numbers, numbersEnd, innerDigits.parenthesis_not_mem, secondDigits.parenthesis_not_mem]
  obtain ⟨further, split⟩ : ∃ further,
      later ++ layoutBehind line column category code words = numbers ++ further := by
    have tails := (List.cons.inj ahead).2
    exact ⟨_, by simpa [layoutBehind, numbers, numbersEnd] using tails⟩
  have inside : ¬ numbers <+: later := by
    intro begins
    have ends : numbersEnd <:+ numbers := List.suffix_append _ _
    have within : later <:+ before ++ c :: later := ⟨before ++ [c], by simp⟩
    exact opened (ends.isInfix.trans (begins.isInfix.trans within.isInfix))
  rcases List.append_eq_append_iff.mp split with ⟨ending, whole, onward⟩ | ⟨ending, whole, _⟩
  · cases ending with
    | nil => exact inside ⟨[], by simpa using whole⟩
    | cons d ending =>
      obtain ⟨rfl, _⟩ := List.cons.inj onward
      exact free (by rw [whole]; simp)
  · exact inside ⟨ending, whole.symm⟩

/-- A run of digits is taken as a whole, up to what is no digit. -/
theorem takesFirst_digits {text rest : List Char} (run : IsDigitRun text)
    (stops : ∀ c ∈ rest.head?, isDecimalDigit c = false) :
    TakesFirst false digitsExpression text rest fun _ => [] := by
  intro β next place captures result ahead matched
  have digit : Regex.run (β := β) false (.oneOf false [.digit false]) = consume isDecimalDigit := by
    funext next
    simp [Regex.run, itemMatches]
  have bounded : text.length ≤ place.ahead.length + 1 + 1 := by
    rw [ahead, List.length_append]
    omega
  rw [digitsExpression, Regex.run, digit]
  exact repeated_greedy run.2 stops (List.length_pos_iff.mpr run.1) bounded ahead matched

/-- The name of a category is taken. -/
theorem takesFirst_category (category : Category) (rest : List Char) :
    TakesFirst false categoryExpression category.name rest fun _ => [] := by
  cases category with
  | error =>
    refine TakesFirst.left ?_
    exact (takesFirst_char 'e' _).seq ((takesFirst_char 'r' _).seq ((takesFirst_char 'r' _).seq
      ((takesFirst_char 'o' _).seq (takesFirst_char 'r' rest))))
  | warning =>
    refine TakesFirst.right ?_ ?_
    · intro text begins reads
      have first : text = ['e', 'r', 'r', 'o', 'r'] := by
        simpa [reads_seq_iff, reads_char_iff] using reads
      rw [first] at begins
      exact absurd (List.cons_prefix_cons.mp begins).1 (by decide)
    · exact (takesFirst_char 'w' _).seq ((takesFirst_char 'a' _).seq ((takesFirst_char 'r' _).seq
        ((takesFirst_char 'n' _).seq ((takesFirst_char 'i' _).seq ((takesFirst_char 'n' _).seq
          (takesFirst_char 'g' rest))))))

/-- The words of a message reach to its end. -/
theorem takesFirst_words {words : List Char} (plain : '\n' ∉ words) :
    TakesFirst false (.loop .anyChar 0 none true) words [] fun _ => [] := by
  intro β next place captures result ahead matched
  have bounded : words.length ≤ place.ahead.length + 0 + 1 := by
    rw [ahead, List.append_nil]
    omega
  exact repeated_greedy (fun c member => bne_iff_ne.mpr fun feed => plain (feed ▸ member)) (by simp)
    (Nat.zero_le _) bounded ahead matched

/-- The end of a text is taken at its end. -/
theorem takesFirst_textEnd : TakesFirst false .textEnd [] [] fun _ => [] := by
  intro β next place captures result ahead matched
  have stays : place.past [] place.ahead = place := place.past_nil
  rw [show place.ahead = [] from ahead] at stays
  rw [stays] at matched
  rw [Regex.run]
  dsimp only
  rw [if_pos (.inl (by rw [ahead]; rfl))]
  exact matched

/-- A run of digits stops at a character that is none. -/
theorem stops_at {c : Char} (rest : List Char) (other : isDecimalDigit c = false) :
    ∀ d ∈ (c :: rest).head?, isDecimalDigit d = false := by
  rintro d ⟨⟩
  exact other

/-- What stands behind the file of a message is taken part by part. -/
theorem takesFirst_tail {line column : List Char} (category : Category) {code words : List Char}
    (lineRun : IsDigitRun line) (columnRun : IsDigitRun column) (codeRun : IsDigitRun code)
    (plain : '\n' ∉ words) :
    ∃ found, TakesFirst false tailExpression (layoutBehind line column category code words) [] found ∧
      ∀ start, (found start).map (fun capture => (capture.index, capture.text)) =
        [(6, words), (5, 'T' :: 'S' :: code), (4, category.name), (3, column), (2, line)] := by
  have wordsTaken := ((takesFirst_words plain).group 6).seq takesFirst_textEnd
  have codeTaken (rest : List Char) := ((takesFirst_char 'T' _).seq ((takesFirst_char 'S' _).seq
    (takesFirst_digits codeRun (stops_at rest (c := ':') (by decide))))).group 5
  have behindCategory := (takesFirst_char ' ' _).seq ((codeTaken _).seq
    ((takesFirst_char ':' _).seq ((takesFirst_char ' ' _).seq wordsTaken)))
  have behindNumbers := (takesFirst_char ')' _).seq ((takesFirst_char ':' _).seq
    ((takesFirst_char ' ' _).seq (((takesFirst_category category _).group 4).seq
      behindCategory)))
  have columnTaken := ((takesFirst_digits columnRun (stops_at _ (c := ')') (by decide))).group
    3).seq behindNumbers
  have lineTaken := ((takesFirst_digits lineRun (stops_at _ (c := ',') (by decide))).group
    2).seq ((takesFirst_char ',' _).seq columnTaken)
  have whole := (takesFirst_char '(' _).seq lineTaken
  simp only [List.append_nil, List.cons_append, List.nil_append] at whole
  exact ⟨_, whole, fun start => rfl⟩

/-- What a message is read as is matched, and every group has its part. -/
theorem match_isReadAs {text file line column : List Char} {category : Category} {code words : List Char}
    (reads : IsReadAs text file line column category code words) (plain : '\n' ∉ text) :
    ∃ found, messageForm.matchStart text = some found ∧
      found.captures.map (fun capture => (capture.index, capture.text)) =
        [(6, words), (5, 'T' :: 'S' :: code), (4, category.name), (3, column), (2, line),
          (1, file)] := by
  obtain ⟨⟨rfl, filled, lineRun, columnRun, codeRun⟩, shortest⟩ := reads
  simp only [layout, layoutBehind, List.mem_append, List.mem_cons, not_or] at plain
  have fileLine : '\n' ∉ file := plain.1
  have wordsLine : '\n' ∉ words := by tauto
  obtain ⟨groups, tailTaken, parts⟩ :=
    takesFirst_tail category lineRun columnRun codeRun wordsLine
  have taken := tailTaken.upTo 1 1 fileLine (List.length_pos_iff.mpr filled) (by
    rintro before skipped rfl more long text ⟨rest, begins⟩ reads
    rw [List.append_nil] at begins
    obtain ⟨inner, second, other, number, following, rfl, innerDigits, secondDigits, numberDigits⟩ :=
      layout_of_reads reads
    have message : IsMessage (layout (before ++ skipped) line column category code words) before inner
        second other number (following ++ rest) := by
      refine ⟨?_, List.ne_nil_of_length_pos long, innerDigits, secondDigits, numberDigits⟩
      rw [layout, List.append_assoc, ← begins]
      simp [layout, layoutBehind]
    have shorter := shortest message
    rw [List.length_append] at shorter
    exact more (List.length_eq_zero_iff.mp (by omega)))
  rw [Pattern.matchStart, messageForm_eq.1, messageForm_eq.2, matchAt_textStart]
  refine ⟨_, taken.matchAt (List.append_nil _).symm, ?_⟩
  simp [parts]

/-- A text with the form of a message is read as one. -/
theorem exists_isReadAs {text : List Char} (form : HasForm text) :
    ∃ file line column category code words, IsReadAs text file line column category code words := by
  classical
  have lengths : ∃ length file line column category code words,
      IsMessage text file line column category code words ∧ file.length = length := by
    obtain ⟨file, line, column, category, code, words, message⟩ := form
    exact ⟨_, file, line, column, category, code, words, message, rfl⟩
  obtain ⟨file, line, column, category, code, words, message, least⟩ := Nat.find_spec lengths
  refine ⟨file, line, column, category, code, words, message, fun other => ?_⟩
  rw [least]
  exact Nat.find_min' lengths ⟨_, _, _, _, _, _, other, rfl⟩

/-- A line of another form holds no message. -/
theorem messageOfLine_of_not_hasForm {line : List Char} (other : ¬ HasForm (trim line)) (disk : Disk)
    (root : Path) : messageOfLine disk root line = .ok none := by
  have unmatched : messageForm.matchStart (trim line) = none := by
    rw [Option.eq_none_iff_forall_ne_some]
    intro found matched
    exact other (hasForm_of_match matched)
  rw [messageOfLine, unmatched]

/-- A line gives the message that it is read as, if its numbers can be read. -/
theorem messageOfLine_of_isReadAs {text file line column : List Char} {category : Category}
    {code words : List Char} (reads : IsReadAs (trim text) file line column category code words)
    (plain : '\n' ∉ trim text) (disk : Disk) (root : Path) :
    messageOfLine disk root text = (do
      let line ← readNumber line
      let column ← readNumber column
      pure (some ⟨(disk.resolve (root.join (.ofList file))).path, line, column,
        String.ofList category.name, String.ofList ('T' :: 'S' :: code), String.ofList words⟩)) := by
  obtain ⟨found, matched, parts⟩ := match_isReadAs reads plain
  have group (index : Nat) : found.group? index =
      (([(6, words), (5, 'T' :: 'S' :: code), (4, category.name), (3, column), (2, line), (1, file)].find?
        (·.1 == index)).map (·.2)) := by
    rw [← parts, List.find?_map, Option.map_map]
    rfl
  rw [messageOfLine, matched]
  simp [group]

/-- A message whose file is open is read as it was printed: other parts would put the end of the numbers
into the file. -/
theorem isReadAs_of_open {file line column : List Char} (category : Category) {code : List Char}
    (words : List Char) (filled : file ≠ []) (opened : ¬ numbersEnd <:+: file) (lineRun : IsDigitRun line)
    (columnRun : IsDigitRun column) (codeRun : IsDigitRun code) :
    IsReadAs (layout file line column category code words) file line column category code words := by
  refine ⟨⟨rfl, filled, lineRun, columnRun, codeRun⟩, ?_⟩
  intro other inner second kind number more message
  by_contra shorter
  have whole := message.whole
  rw [layout, layout] at whole
  rcases List.append_eq_append_iff.mp whole with ⟨longer, split, _⟩ | ⟨skipped, split, onward⟩
  · exact shorter (by rw [split, List.length_append]; omega)
  · have rest : skipped ≠ [] := by
      rintro rfl
      exact shorter (by rw [split, List.append_nil])
    rw [split] at opened
    exact no_layout_inside opened rest message.line_digits message.column_digits onward.symm

end Conformance.Compiler
