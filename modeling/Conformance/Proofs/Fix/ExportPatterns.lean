import Conformance.Fix.Exports
import Conformance.Proofs.Pattern.Capturing
import Conformance.Proofs.Pattern.Words

/-!
# What the patterns for exports take

The patterns for default exports and for declarations in their parts: what a match of each takes, and which part
of it each group captures.
-/

namespace Conformance.Fix

open Text Regex Pattern

/-- At least one blank. -/
def blanks : Regex := .loop (.oneOf false [.blank false]) 1 none true

/-- Any number of blanks. -/
def anyBlanks : Regex := .loop (.oneOf false [.blank false]) 0 none true

/-- The blanks in front of a line. -/
def indentation : Regex := .loop (.oneOf false [.range ' ' ' ', .range '\t' '\t']) 0 none true

/-- A name. -/
def nameLetters : Regex := .loop (.oneOf false [.word false]) 1 none true

/-- The word of an asynchronous function, if it is one. -/
def asyncWord : Regex := .loop (spelled "async".toList blanks) 0 (some 1) true

/-- The words of a named declaration. -/
def declarationWords : Regex :=
  .either (.seq asyncWord (spelled "functio".toList (.char 'n'))) (spelled "clas".toList (.char 's'))

/-- The words that declare variables. -/
def variableWords : Regex :=
  .either (spelled "cons".toList (.char 't')) (.either (spelled "le".toList (.char 't'))
    (spelled "va".toList (.char 'r')))

/-- The words of a default export in front of what is exported. -/
def defaultWords (behind : Regex) : Regex :=
  spelled "export".toList (.seq blanks (spelled "default".toList (.seq blanks behind)))

/-- The end of the line of a default export. -/
def lineTail : Regex :=
  .seq indentation (.seq (.loop (.char ';') 0 (some 1) true) (.seq indentation (.either (.char '\n') .lineEnd)))

/-- The default export of a named declaration in its parts. -/
theorem inlineDefault_eq : inlineDefault.ignoreCase = false ∧ inlineDefault.regex =
    defaultWords (.seq (.group 1 declarationWords) (.seq blanks (.group 2 nameLetters))) := by
  decide +kernel

/-- The default export of a name in its parts. -/
theorem trailingDefault_eq : trailingDefault.ignoreCase = false ∧ trailingDefault.regex =
    .seq .lineStart (defaultWords (.seq (.group 1 nameLetters) lineTail)) := by
  decide +kernel

/-- What stands behind the name of a variable. -/
def behindVariable : Regex := .seq anyBlanks (.oneOf false [.range '=' '=', .range ':' ':'])

/-- What stands behind the name of a function. -/
def behindFunction : Regex := .seq anyBlanks (.oneOf false [.range '(' '(', .range '<' '<'])

variable {name : String}

/-! How the patterns with a name in them are written, and what is read there. -/

/-- The group for the indentation of a line, as it is written in front of other text. -/
def indentationGroup (rest : List Char) : List Char :=
  '(' :: '[' :: ' ' :: '\\' :: 't' :: ']' :: '*' :: ')' :: rest

/-- The group for the words that declare variables. -/
def variableGroup (rest : List Char) : List Char :=
  '(' :: 'c' :: 'o' :: 'n' :: 's' :: 't' :: '|' :: 'l' :: 'e' :: 't' :: '|' :: 'v' :: 'a' :: 'r' :: ')' :: rest

/-- The word for an asynchronous function, which may be missing. -/
def asyncGroup (rest : List Char) : List Char :=
  '(' :: '?' :: ':' :: 'a' :: 's' :: 'y' :: 'n' :: 'c' :: '\\' :: 's' :: '+' :: ')' :: '?' :: rest

/-- The word for a function. -/
def functionWord : List Char := ['f', 'u', 'n', 'c', 't', 'i', 'o', 'n']

/-- At least one blank. -/
def blankRun (rest : List Char) : List Char := '\\' :: 's' :: '+' :: rest

/-- What is written behind the name of a variable, to the end of its group. -/
def variableEnd : List Char := ['\\', 's', '*', '[', '=', ':', ']', ')']

/-- What is written behind the name of a function, to the end of its group. -/
def functionEnd : List Char := ['\\', 's', '*', '[', '(', '<', ']', ')']

/-- The start of a line. -/
theorem atom_lineStart (next : Nat) (rest : List Char) :
    atom ⟨false, true⟩ 1 next ('^' :: rest) = some (.lineStart, next, rest) := rfl

/-- The indentation of a line. -/
theorem atom_indentation (rest : List Char) :
    atom ⟨false, true⟩ 12 1 (indentationGroup rest) = some (.group 1 indentation, 2, rest) := rfl

/-- The words that declare variables. -/
theorem atom_variableWords (rest : List Char) :
    atom ⟨false, true⟩ 14 2 (variableGroup rest) = some (.group 2 variableWords, 3, rest) := rfl

/-- The word for an asynchronous function. -/
theorem atom_asyncWord (next : Nat) (rest : List Char) :
    atom ⟨false, true⟩ 12 next (asyncGroup rest) = some (spelled "async".toList blanks, next, '?' :: rest) :=
  rfl

/-- A blank. -/
theorem atom_blank (next : Nat) (rest : List Char) :
    atom ⟨false, true⟩ 1 next (blankRun rest) = some (.oneOf false [.blank false], next, '+' :: rest) := rfl

/-- A name and what stands behind it do not begin with a question mark. -/
theorem head_name {c : Char} {behind : List Char} (letters : ∀ c ∈ name.toList, isWord c = true)
    (other : c ≠ '?') : (name.toList ++ c :: behind).head? ≠ some '?' := by
  intro begins
  cases split : name.toList with
  | nil =>
    rw [split] at begins
    exact other (Option.some.inj begins)
  | cons d rest =>
    rw [split] at begins
    have first := letters d (split ▸ List.mem_cons_self)
    rw [Option.some.inj begins] at first
    cases first

/-- A pattern that begins with the indentation of a line. -/
theorem sequence_indented {fuel last : Nat} {rest stop : List Char} {others : Regex} (enough : 12 ≤ fuel)
    (filled : others ≠ .empty)
    (read : sequence ⟨false, true⟩ fuel 2 ('(' :: rest) = some (others, last, stop)) :
    sequence ⟨false, true⟩ (fuel + 2) 1 ('^' :: indentationGroup ('(' :: rest)) =
      some (.seq .lineStart (.seq (.group 1 indentation) others), last, stop) := by
  have indented := sequence_read (atom_indentation ('(' :: rest)) rfl enough (by decide) read
  have joined : andThen (.group 1 indentation) others = .seq (.group 1 indentation) others := by
    cases others <;> first | rfl | exact absurd rfl filled
  rw [joined] at indented
  have positive : 1 ≤ fuel + 1 := by omega
  exact sequence_read (atom_lineStart 1 (indentationGroup ('(' :: rest))) rfl positive (by decide) indented

/-- The meaning of a pattern that is one sequence. -/
theorem regex?_single {text : List Char} {fuel last : Nat} {regex : Regex}
    (read : sequence ⟨false, true⟩ fuel 1 text = some (regex, last, [])) (enough : fuel ≤ 3 * text.length) :
    regex? ⟨false, true⟩ text = some regex := by
  have whole := alternatives_single read (by rintro ⟨⟩)
  rw [regex?, (read_mono (by omega)).1 whole]

/-- The declaration of a name as a variable in its parts. -/
theorem variableDeclaration_eq (letters : ∀ c ∈ name.toList, isWord c = true) :
    (variableDeclaration name).ignoreCase = false ∧ (variableDeclaration name).regex =
      .seq .lineStart (.seq (.group 1 indentation) (.seq (.group 2 variableWords) (.seq blanks
        (.group 3 (spelled name.toList behindVariable))))) := by
  refine ⟨rfl, ?_⟩
  have behind : sequence ⟨false, true⟩ 20 4 variableEnd = some (behindVariable, 4, [')']) := rfl
  have word := sequence_word letters (by decide) (by decide) (by rintro ⟨⟩) behind
  have group := atom_group (head_name letters (by decide)) (alternatives_single word (by rintro ⟨⟩))
  have last := sequence_read group rfl (Nat.le_refl _) (by decide) rfl
  have spaced := sequence_read (atom_blank 3 ('(' :: (name.toList ++ variableEnd)))
    (quantified_plus (by rintro ⟨⟩)) (by omega) (by decide) last
  have kinds := sequence_read (atom_variableWords (blankRun ('(' :: (name.toList ++ variableEnd)))) rfl
    (by omega) (by decide) spaced
  have whole := sequence_indented (by omega) (by rintro ⟨⟩) kinds
  have source : ("^([ \\t]*)(const|let|var)\\s+(" ++ name ++ "\\s*[=:])").toList =
      '^' :: indentationGroup (variableGroup (blankRun ('(' :: (name.toList ++ variableEnd)))) := by
    rw [String.toList_append, String.toList_append, List.append_assoc]
    rfl
  have enough : 20 + name.toList.length + 1 + 1 + 1 + 1 + 1 + 2 ≤ 3 * ('^' :: indentationGroup (variableGroup
      (blankRun ('(' :: (name.toList ++ variableEnd))))).length := by
    simp only [indentationGroup, variableGroup, blankRun, variableEnd, List.length_cons, List.length_append]
    omega
  have meant : regex? ⟨false, true⟩ ('^' :: indentationGroup (variableGroup (blankRun ('(' :: (name.toList ++
      variableEnd))))) = some _ := regex?_single whole enough
  rw [variableDeclaration, ofText, source, meant]
  rfl

/-- The declaration of a name as a function in its parts. -/
theorem functionDeclaration_eq (letters : ∀ c ∈ name.toList, isWord c = true) :
    (functionDeclaration name).ignoreCase = false ∧ (functionDeclaration name).regex =
      .seq .lineStart (.seq (.group 1 indentation) (.group 2 (.seq asyncWord (spelled "function".toList
        (.seq blanks (spelled name.toList behindFunction)))))) := by
  refine ⟨rfl, ?_⟩
  have behind : sequence ⟨false, true⟩ 20 3 functionEnd = some (behindFunction, 3, [')']) := rfl
  have word := sequence_word letters (by decide) (by decide) (by rintro ⟨⟩) behind
  have spaced := sequence_read (atom_blank 3 (name.toList ++ functionEnd))
    (quantified_plus (head_name letters (by decide))) (by omega) (by decide) word
  have joined : andThen (.loop (.oneOf false [.blank false]) 1 none true) (spelled name.toList behindFunction) =
      .seq blanks (spelled name.toList behindFunction) := by
    cases name.toList <;> rfl
  rw [joined] at spaced
  have keyword : ∀ c ∈ functionWord, isWord c = true := List.all_eq_true.mp (by decide)
  have called := sequence_word keyword (by omega) (by decide) (by rintro ⟨⟩) spaced
  have async := sequence_read (atom_asyncWord 3 (functionWord ++ blankRun (name.toList ++ functionEnd))) rfl
    (by omega) (by decide) called
  have group := atom_group (by rintro ⟨⟩) (alternatives_single async (by rintro ⟨⟩))
  have last := sequence_read group rfl (Nat.le_refl _) (by decide) rfl
  have whole := sequence_indented (by omega) (by rintro ⟨⟩) last
  have source : ("^([ \\t]*)((?:async\\s+)?function\\s+" ++ name ++ "\\s*[(<])").toList = '^' ::
      indentationGroup ('(' :: asyncGroup (functionWord ++ blankRun (name.toList ++ functionEnd))) := by
    rw [String.toList_append, String.toList_append, List.append_assoc]
    rfl
  have enough : 20 + name.toList.length + 1 + functionWord.length + 1 + 1 + 1 + 1 + 2 ≤ 3 * ('^' ::
      indentationGroup ('(' :: asyncGroup (functionWord ++ blankRun (name.toList ++ functionEnd)))).length := by
    simp only [indentationGroup, asyncGroup, functionWord, blankRun, functionEnd, List.length_cons,
      List.length_append]
    omega
  have meant : regex? ⟨false, true⟩ ('^' :: indentationGroup ('(' :: asyncGroup (functionWord ++ blankRun
      (name.toList ++ functionEnd)))) = some _ := regex?_single whole enough
  rw [functionDeclaration, ofText, source, meant]
  rfl

/-! What is taken. -/

variable {place : Place} {text : List Char} {captures : List Capture} {behind : Regex}

/-- A text in front of another expression is taken first. -/
theorem takes_spelled {word : List Char} (takes : Takes false (spelled word behind) place text captures) :
    ∃ place rest, text = word ++ rest ∧ Takes false behind place rest captures := by
  induction word generalizing place text captures with
  | nil => exact ⟨place, text, rfl, takes⟩
  | cons c word inductionHypothesis =>
    obtain ⟨before, after, ahead, earlier, later, rfl, rfl, _, begins, goesOn⟩ := takes_seq takes
    obtain ⟨rfl, rfl⟩ := takes_char begins
    obtain ⟨place, rest, rfl, onward⟩ := inductionHypothesis goesOn
    rw [List.append_nil]
    exact ⟨place, rest, rfl, onward⟩

/-- A text has a group if what stands behind it has. -/
theorem hasGroup_spelled (word : List Char) (behind : Regex) :
    hasGroup (spelled word behind) = hasGroup behind := by
  induction word with
  | nil => rfl
  | cons c word inductionHypothesis => exact inductionHypothesis

/-- A group without another one in it, in front of something else. -/
theorem takes_groupBefore {index : Nat} {body : Regex} (plain : hasGroup body = false)
    (takes : Takes false (.seq (.group index body) behind) place text captures) :
    ∃ place start part rest others, text = part ++ rest ∧ captures = others ++ [⟨index, start, part⟩] ∧
      (∃ place, Takes false body place part []) ∧ Takes false behind place rest others := by
  obtain ⟨part, rest, _, _, others, rfl, rfl, _, begins, goesOn⟩ := takes_seq takes
  obtain ⟨inner, rfl, inside⟩ := takes_group begins
  obtain rfl := captures_nothing inside plain
  exact ⟨_, _, part, rest, others, rfl, rfl, ⟨_, inside⟩, goesOn⟩

/-- A group without another one in it. -/
theorem takes_lastGroup {index : Nat} {body : Regex} (plain : hasGroup body = false)
    (takes : Takes false (.group index body) place text captures) :
    captures = [⟨index, place.offset, text⟩] ∧ ∃ place, Takes false body place text [] := by
  obtain ⟨inner, rfl, inside⟩ := takes_group takes
  obtain rfl := captures_nothing inside plain
  exact ⟨rfl, _, inside⟩

/-- A repetition of blanks of some kind takes blanks only. -/
theorem takes_set {items : List SetItem} {least : Nat} (test : Char → Prop)
    (all : ∀ c, items.any (itemMatches false c) = true → test c)
    (takes : Takes false (.loop (.oneOf false items) least none true) place text captures) :
    least ≤ text.length ∧ (∀ c ∈ text, test c) ∧ captures = [] := by
  refine takes_loop (fun one => ?_) takes
  obtain ⟨⟨c, rfl, member⟩, rfl⟩ := takes_oneOf one
  exact ⟨⟨c, rfl, all c (by simpa using member)⟩, rfl⟩

/-- At least one blank, in front of something else. -/
theorem takes_blanks (takes : Takes false (.seq blanks behind) place text captures) :
    ∃ place c gap rest, text = c :: (gap ++ rest) ∧ isBlank c = true ∧
      Takes false behind place rest captures := by
  obtain ⟨before, after, ahead, earlier, later, rfl, rfl, _, begins, goesOn⟩ := takes_seq takes
  obtain ⟨enough, passes, rfl⟩ :=
    takes_set (fun c => isBlank c = true) (fun c member => by simpa [itemMatches] using member) begins
  cases before with
  | nil => cases enough
  | cons c gap =>
    rw [List.append_nil]
    exact ⟨_, c, gap, after, rfl, passes c List.mem_cons_self, goesOn⟩

/-- A name has word characters only. -/
theorem takes_nameLetters (takes : Takes false nameLetters place text captures) :
    ∀ c ∈ text, isWord c = true :=
  (takes_set (fun c => isWord c = true) (fun c member => by simpa [itemMatches] using member) takes).2.1

/-- A name has at least one character. -/
theorem filled_nameLetters (takes : Takes false nameLetters place text captures) : text ≠ [] := by
  have least := (takes_set (fun _ => True) (fun _ _ => trivial) takes).1
  rintro rfl
  cases least

/-- An indentation has blanks only. -/
theorem takes_indentation (takes : Takes false indentation place text captures) :
    ∀ c ∈ text, isBlank c = true := by
  refine (takes_set (fun c => isBlank c = true) (fun c member => ?_) takes).2.1
  have within : c ≤ ' ' ∧ ' ' ≤ c ∨ c ≤ '\t' ∧ '\t' ≤ c := by simpa [itemMatches, and_comm] using member
  rcases within with ⟨low, high⟩ | ⟨low, high⟩ <;>
    · rw [Char.le_antisymm low high]
      decide

/-- The words of a default export. -/
theorem takes_defaultWords (takes : Takes false (defaultWords behind) place text captures) :
    ∃ place c gap d further rest, text = "export".toList ++ c :: (gap ++ ("default".toList ++
      d :: (further ++ rest))) ∧ isBlank c = true ∧ isBlank d = true ∧
        Takes false behind place rest captures := by
  obtain ⟨_, _, rfl, spaced⟩ := takes_spelled takes
  obtain ⟨_, c, gap, _, rfl, first, onward⟩ := takes_blanks spaced
  obtain ⟨_, _, rfl, gapped⟩ := takes_spelled onward
  obtain ⟨place, d, further, rest, rfl, second, last⟩ := takes_blanks gapped
  exact ⟨place, c, gap, d, further, rest, rfl, first, second, last⟩

variable {found : Match} {front rest : List Char}

/-- A default export of a named declaration, as it is found. -/
theorem found_inlineDefault
    (there : FoundAt inlineDefault.ignoreCase inlineDefault.regex place found front rest) :
    ∃ c gap d further e last, found.text = "export".toList ++ c :: (gap ++ ("default".toList ++
      d :: (further ++ (groupText found 1 ++ e :: (last ++ groupText found 2))))) ∧
        isBlank c = true ∧ isBlank d = true ∧ isBlank e = true ∧
          (∃ place, Takes false declarationWords place (groupText found 1) []) ∧
            ∃ place, Takes false nameLetters place (groupText found 2) [] := by
  have takes := there.takes
  rw [inlineDefault_eq.1, inlineDefault_eq.2] at takes
  obtain ⟨_, c, gap, d, further, _, split, first, second, onward⟩ := takes_defaultWords takes
  obtain ⟨_, _, kind, _, _, rfl, captured, declares, spaced⟩ := takes_groupBefore (by decide) onward
  obtain ⟨_, e, last, name, rfl, third, named⟩ := takes_blanks spaced
  obtain ⟨rfl, letters⟩ := takes_lastGroup (by decide) named
  have declared : groupText found 1 = kind := by simp [groupText, Match.group?, captured]
  have called : groupText found 2 = name := by simp [groupText, Match.group?, captured]
  rw [declared, called]
  exact ⟨c, gap, d, further, e, last, split, first, second, third, declares, letters⟩

/-- A line begins behind a text. -/
def BeginsLine (front : List Char) : Prop := front = [] ∨ front.getLast? = some '\n'

/-- What is taken behind the start of a line. -/
theorem takes_line
    (takes : Takes false (.seq .lineStart behind) ((startOf text).past front rest) found.text captures) :
    BeginsLine front ∧ ∃ place, Takes false behind place found.text captures := by
  obtain ⟨_, after, _, _, _, split, rfl, _, begins, goesOn⟩ := takes_seq takes
  obtain ⟨rfl, rfl, start⟩ := takes_lineStart begins
  obtain rfl : found.text = after := split
  rw [List.append_nil]
  refine ⟨?_, _, goesOn⟩
  rcases start with none | feed
  · exact .inl (List.length_eq_zero_iff.mp (by simpa [startOf, Place.past] using none))
  · exact .inr (by simpa [startOf, Place.past] using feed)

/-- A default export of a name, as it is found. -/
theorem found_trailingDefault (there : FoundIn trailingDefault text found front rest) :
    BeginsLine front ∧ (∀ c ∈ groupText found 1, isWord c = true) ∧ groupText found 1 ≠ [] ∧ ∃ c gap d further tail,
      found.text = "export".toList ++ c :: (gap ++ ("default".toList ++
        d :: (further ++ (groupText found 1 ++ tail)))) ∧ isBlank c = true ∧ isBlank d = true := by
  have takes := there.takes
  rw [trailingDefault_eq.1, trailingDefault_eq.2] at takes
  obtain ⟨line, _, words⟩ := takes_line takes
  obtain ⟨_, c, gap, d, further, _, split, first, second, onward⟩ := takes_defaultWords words
  obtain ⟨_, _, name, tail, _, rfl, captured, ⟨_, letters⟩, ends⟩ := takes_groupBefore (by decide) onward
  rw [captures_nothing ends (by decide)] at captured
  have named : groupText found 1 = name := by simp [groupText, Match.group?, captured]
  rw [named]
  exact ⟨line, takes_nameLetters letters, filled_nameLetters letters, c, gap, d, further, tail, split, first, second⟩

/-- A declaration of a name as a variable, as it is found. -/
theorem found_variableDeclaration (letters : ∀ c ∈ name.toList, isWord c = true)
    (there : FoundIn (variableDeclaration name) text found front rest) :
    BeginsLine front ∧ (∀ c ∈ groupText found 1, isBlank c = true) ∧ ∃ c gap,
      found.text = groupText found 1 ++ (groupText found 2 ++ c :: (gap ++ groupText found 3)) ∧
        isBlank c = true ∧ (∃ place, Takes false variableWords place (groupText found 2) []) ∧
          ∃ place, Takes false (spelled name.toList behindVariable) place (groupText found 3) [] := by
  have takes := there.takes
  rw [(variableDeclaration_eq letters).1, (variableDeclaration_eq letters).2] at takes
  obtain ⟨line, _, words⟩ := takes_line takes
  obtain ⟨_, _, indent, _, _, split, captured, ⟨_, blank⟩, onward⟩ := takes_groupBefore (by decide) words
  obtain ⟨_, _, kind, _, _, rfl, rfl, words_, spaced⟩ := takes_groupBefore (by decide) onward
  obtain ⟨_, c, gap, last, rfl, first, named⟩ := takes_blanks spaced
  obtain ⟨rfl, called⟩ := takes_lastGroup (by rw [hasGroup_spelled]; decide) named
  have indented : groupText found 1 = indent := by simp [groupText, Match.group?, captured]
  have declared : groupText found 2 = kind := by simp [groupText, Match.group?, captured]
  have behind : groupText found 3 = last := by simp [groupText, Match.group?, captured]
  rw [indented, declared, behind]
  exact ⟨line, takes_indentation blank, c, gap, split, first, words_, called⟩

/-- A declaration of a name as a function, as it is found. -/
theorem found_functionDeclaration (letters : ∀ c ∈ name.toList, isWord c = true)
    (there : FoundIn (functionDeclaration name) text found front rest) :
    BeginsLine front ∧ (∀ c ∈ groupText found 1, isBlank c = true) ∧
      found.text = groupText found 1 ++ groupText found 2 ∧
        ∃ place, Takes false (.seq asyncWord (spelled "function".toList (.seq blanks
          (spelled name.toList behindFunction)))) place (groupText found 2) [] := by
  have takes := there.takes
  rw [(functionDeclaration_eq letters).1, (functionDeclaration_eq letters).2] at takes
  obtain ⟨line, _, words⟩ := takes_line takes
  obtain ⟨_, _, indent, last, _, split, captured, ⟨_, blank⟩, onward⟩ := takes_groupBefore (by decide) words
  have plain : hasGroup (.seq asyncWord (spelled "function".toList (.seq blanks
      (spelled name.toList behindFunction)))) = false := by
    simp only [hasGroup, hasGroup_spelled]
    decide
  obtain ⟨rfl, called⟩ := takes_lastGroup plain onward
  have indented : groupText found 1 = indent := by simp [groupText, Match.group?, captured]
  have declared : groupText found 2 = last := by simp [groupText, Match.group?, captured]
  rw [indented, declared]
  exact ⟨line, takes_indentation blank, split, called⟩

end Conformance.Fix
