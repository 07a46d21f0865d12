import Conformance.Proofs.Fix.LeadingDirective
import Conformance.Proofs.Fix.ReturnTypePatterns
import Conformance.Proofs.Fix.SettledExports
import Conformance.Proofs.Syntax.NamedExports

/-!
# Named exports in place of default ones

A pass over the exports of a text leaves `export` in front of the declaration of a name, or puts it there. Whether
that exports the name depends on what the reader makes of the place.
-/

namespace Conformance.Fix

open Text Regex Pattern Syntax

/-! Where a pass names an export. -/

/-- Whether no name goes on with the beginning of a text. -/
def endsName (tail : List Char) : Bool := tail.head?.all fun c => !isNamePart c && c != '\\'

/-- The test finds that out. -/
theorem endsName_iff {tail : List Char} : endsName tail = true ↔ EndsName tail := by
  unfold endsName EndsName
  cases tail with
  | nil => simp
  | cons c rest => simp

/-- A place where `export` stands in front of the declaration of a name. -/
structure NamedPlace where
  name : List Char
  front : List Char
  behind : List Char
  deriving DecidableEq

/-- The whole text. -/
def NamedPlace.text (place : NamedPlace) : List Char := place.front ++ ("export ".toList ++ place.behind)

/-- The words of a declaration stand there in front of the name. -/
def NamedPlace.IsDeclared (place : NamedPlace) : Prop :=
  ∃ words tail, place.behind = words ++ (place.name ++ tail) ∧ Declares words tail ∧ WholeName place.name tail

/-- Where the default export of a name is moved to. -/
def trailingPlace? (text : List Char) : Option NamedPlace :=
  (trailingDefault.search text).bind fun found =>
    let name := groupText found 1
    let rest := withoutMatch text found
    let variable_ := ((variableDeclaration (String.ofList name)).search rest).map fun declared =>
      ⟨name, rest.take declared.start ++ groupText declared 1,
        groupText declared 2 ++ ' ' :: (groupText declared 3 ++ rest.drop declared.stop)⟩
    let function := ((functionDeclaration (String.ofList name)).search rest).map fun declared =>
      ⟨name, rest.take declared.start ++ groupText declared 1, groupText declared 2 ++ rest.drop declared.stop⟩
    variable_.or function

/-- Where the default exports of declarations with whole names lose their `default`. The matches are those from an
offset on, and what is in front of it is given. -/
def inlinePlaces : List Match → (offset : Nat) → (front text : List Char) → List NamedPlace
  | [], _, _, _ => []
  | found :: later, offset, front, text =>
    let before := front ++ text.take (found.start - offset)
    let rest := text.drop (found.stop - offset)
    let tail := splice namedInline later found.stop rest
    let others := inlinePlaces later found.stop (before ++ namedInline found) rest
    if endsName tail then
      ⟨groupText found 2, before, groupText found 1 ++ ' ' :: (groupText found 2 ++ tail)⟩ :: others
    else others

/-- Where a pass over the exports of a text names one: where it moves a default export to, or else where it takes
the `default` away. -/
def namedPlaces (text : List Char) : List NamedPlace :=
  match trailingPlace? (nameInline text) with
  | some place => [place]
  | none => inlinePlaces (inlineDefault.allMatches text) 0 [] text

/-! What the words are. -/

variable {place : Place} {text front rest : List Char} {captures : List Capture} {behind : Regex} {found : Match}
  {name : String}

/-- The word for asynchronous, or nothing. -/
def IsAsync (word : List Char) : Prop := word = [] ∨ ∃ gap, Spacing gap ∧ word = "async".toList ++ gap

/-- The word for asynchronous is taken once or not at all. -/
theorem takes_asyncWord (takes : Takes false asyncWord place text captures) : IsAsync text := by
  cases takes with
  | done => exact .inl rfl
  | pass _ _ first others =>
    obtain ⟨_, gap, rfl, spaces⟩ := takes_spelled first
    obtain ⟨enough, passes, _⟩ :=
      takes_set (fun c => isBlank c = true) (fun c member => by simpa [itemMatches] using member) spaces
    cases others with
    | done =>
      rw [List.append_nil]
      exact .inr ⟨gap, ⟨List.length_pos_iff.mp enough, passes⟩, rfl⟩
    | pass allowed => exact absurd rfl allowed

/-- The word for asynchronous in front of something else. -/
theorem takes_beforeAsync (takes : Takes false (.seq asyncWord behind) place text captures) :
    ∃ place word rest captures, text = word ++ rest ∧ IsAsync word ∧ Takes false behind place rest captures := by
  obtain ⟨word, rest, _, _, _, rfl, rfl, _, begins, goesOn⟩ := takes_seq takes
  exact ⟨_, word, rest, _, rfl, takes_asyncWord begins, goesOn⟩

/-- The words of a function, asynchronous or not. -/
theorem declares_function {word gap : List Char} (async : IsAsync word) (spaced : Spacing gap) (tail : List Char) :
    Declares (word ++ ("function".toList ++ gap)) tail := by
  rcases async with rfl | ⟨first, divided, rfl⟩
  · exact .ofFunction spaced tail
  · rw [List.append_assoc]
    exact .ofAsync divided spaced tail

/-- The words of a declaration that is exported as the default. -/
theorem takes_declarationWords (takes : Takes false declarationWords place text captures) (tail : List Char) :
    Declares (text ++ [' ']) tail := by
  have space : Spacing [' '] := ⟨by decide, List.all_eq_true.mp (by decide)⟩
  rcases takes_either takes with function | class_
  · obtain ⟨_, word, _, _, rfl, async, words⟩ := takes_beforeAsync function
    obtain ⟨_, _, rfl, last⟩ := takes_spelled words
    obtain ⟨rfl, _⟩ := takes_char last
    rw [List.append_assoc]
    exact declares_function async space tail
  · obtain ⟨_, _, rfl, last⟩ := takes_spelled class_
    obtain ⟨rfl, _⟩ := takes_char last
    exact .ofClass space tail

/-- The words that declare variables. -/
theorem takes_variableWords (takes : Takes false variableWords place text captures) :
    ∃ kind ∈ ["const", "let", "var"], text = kind.toList := by
  rcases takes_either takes with const | others
  · obtain ⟨_, _, rfl, last⟩ := takes_spelled const
    obtain ⟨rfl, _⟩ := takes_char last
    exact ⟨"const", by decide, rfl⟩
  · rcases takes_either others with let_ | var
    · obtain ⟨_, _, rfl, last⟩ := takes_spelled let_
      obtain ⟨rfl, _⟩ := takes_char last
      exact ⟨"let", by decide, rfl⟩
    · obtain ⟨_, _, rfl, last⟩ := takes_spelled var
      obtain ⟨rfl, _⟩ := takes_char last
      exact ⟨"var", by decide, rfl⟩

/-- Blanks and a mark, as they stand behind a declared name. -/
theorem takes_anyBlanksMark {marks : List SetItem}
    (takes : Takes false (.seq anyBlanks (.oneOf false marks)) place text captures) :
    ∃ gap mark, text = gap ++ [mark] ∧ (∀ c ∈ gap, isBlank c = true) ∧ marks.any (itemMatches false mark) = true := by
  obtain ⟨gap, place, rest, rfl, last⟩ := takes_anyBlanks takes
  obtain ⟨⟨mark, rfl, member⟩, _⟩ := takes_oneOf last
  exact ⟨gap.val, mark, rfl, gap.property, by simpa using member⟩

/-- A range of one character. -/
theorem eq_of_itemMatches {c d : Char} (one : itemMatches false c (.range d d) = true) : c = d := by
  have within : c ≤ d ∧ d ≤ c := by simpa [itemMatches, and_comm] using one
  exact Char.le_antisymm within.1 within.2

/-! What a pass makes of the places. -/

/-- A mark behind blanks ends a name. -/
theorem endsName_marked {gap more : List Char} {mark : Char} (blank : ∀ c ∈ gap, isBlank c = true)
    (barrier : isNamePart mark = false) (escape : mark ≠ '\\') : EndsName (gap ++ mark :: more) := by
  cases gap with
  | nil =>
    rintro _ ⟨⟩
    exact ⟨barrier, escape⟩
  | cons c gap => exact endsName_blank (blank c List.mem_cons_self) _

/-- A default export that is moved to a variable. -/
theorem isDeclared_variable {called : List Char} (filled : called ≠ []) (letters : ∀ c ∈ called, isWord c = true)
    (there : FoundIn (variableDeclaration (String.ofList called)) text found front rest) (before : List Char) :
    (⟨called, before, groupText found 2 ++ ' ' :: (groupText found 3 ++ rest)⟩ : NamedPlace).IsDeclared := by
  have space : Spacing [' '] := ⟨by decide, List.all_eq_true.mp (by decide)⟩
  obtain ⟨_, _, _, _, _, _, ⟨_, words⟩, _, named⟩ :=
    found_variableDeclaration (by rwa [String.toList_ofList]) there
  obtain ⟨kind, listed, kind_⟩ := takes_variableWords words
  rw [String.toList_ofList] at named
  obtain ⟨_, _, name_, last⟩ := takes_spelled named
  obtain ⟨gap, mark, rfl, blank, one⟩ := takes_anyBlanksMark last
  have marked : mark ∈ ['=', ':'] := by
    simp only [List.any_cons, List.any_nil, Bool.or_false, Bool.or_eq_true] at one
    rcases one with one | one <;> rw [eq_of_itemMatches one] <;> decide
  have barrier : isNamePart mark = false ∧ mark ≠ '\\' := by
    simp only [List.mem_cons, List.not_mem_nil, or_false] at marked
    rcases marked with rfl | rfl <;> decide
  refine ⟨kind.toList ++ [' '], gap ++ mark :: rest, ?_, .ofVariable listed space blank marked,
    filled, fun c member => isNamePart_of_isWord (letters c member), endsName_marked blank barrier.1 barrier.2⟩
  rw [kind_, name_]
  simp only [List.append_assoc, List.cons_append, List.nil_append]

/-- A default export that is moved to a function. -/
theorem isDeclared_function {called : List Char} (filled : called ≠ []) (letters : ∀ c ∈ called, isWord c = true)
    (there : FoundIn (functionDeclaration (String.ofList called)) text found front rest) (before : List Char) :
    (⟨called, before, groupText found 2 ++ rest⟩ : NamedPlace).IsDeclared := by
  have same : (String.ofList called).toList = called := String.toList_ofList
  obtain ⟨_, _, _, _, takes⟩ := found_functionDeclaration (by rwa [same]) there
  rw [same] at takes
  obtain ⟨_, word, _, _, words, async, onward⟩ := takes_beforeAsync takes
  obtain ⟨_, _, rfl, spaced⟩ := takes_spelled onward
  obtain ⟨gap, _, _, rfl, named⟩ := takes_gap spaced
  obtain ⟨_, _, rfl, last⟩ := takes_spelled named
  obtain ⟨blanks, mark, rfl, blank, one⟩ := takes_anyBlanksMark last
  have barrier : isNamePart mark = false ∧ mark ≠ '\\' := by
    simp only [List.any_cons, List.any_nil, Bool.or_false, Bool.or_eq_true] at one
    rcases one with one | one <;> rw [eq_of_itemMatches one] <;> decide
  refine ⟨word ++ ("function".toList ++ gap.val), blanks ++ mark :: rest, ?_,
    declares_function async ⟨gap.property.1, gap.property.2⟩ _,
    filled, fun c member => isNamePart_of_isWord (letters c member), endsName_marked blank barrier.1 barrier.2⟩
  rw [words]
  simp only [List.append_assoc, List.cons_append, List.nil_append]

/-- A pattern that is not found does not occur. -/
theorem occursIn_of_none {pattern : Pattern} (unmatched : pattern.search text = none) :
    pattern.occursIn text = false :=
  congrArg Option.isSome unmatched

/-- Where the default export of a name is moved, the name is exported, and its declaration stands there. -/
theorem nameTrailing_eq {place : NamedPlace} (moved : trailingPlace? text = some place) :
    nameTrailing text = place.text ∧ place.IsDeclared := by
  obtain ⟨found, matched, moved⟩ := Option.bind_eq_some_iff.mp moved
  obtain ⟨_, _, there⟩ := foundIn_search matched
  obtain ⟨_, letters, filled, _⟩ := found_trailingDefault there
  unfold nameTrailing
  rw [matched]
  dsimp only at moved ⊢
  generalize groupText found 1 = called at letters filled moved ⊢
  generalize withoutMatch text found = others at moved ⊢
  rcases Option.or_eq_some_iff.mp moved with declared | ⟨absent, declared⟩
  · obtain ⟨declared, matched, rfl⟩ := Option.map_eq_some_iff.mp declared
    obtain ⟨front, rest, there⟩ := foundIn_search matched
    obtain ⟨_, start, stop⟩ := there.cut
    have occurs : (variableDeclaration (String.ofList called)).occursIn others = true :=
      congrArg Option.isSome matched
    rw [if_pos occurs, replaceFirst_found matched there, start, stop]
    refine ⟨?_, isDeclared_variable filled letters there _⟩
    simp only [NamedPlace.text, List.append_assoc, List.cons_append, List.nil_append]
  · obtain ⟨declared, matched, rfl⟩ := Option.map_eq_some_iff.mp declared
    obtain ⟨front, rest, there⟩ := foundIn_search matched
    obtain ⟨_, start, stop⟩ := there.cut
    have missing := occursIn_of_none (Option.map_eq_none_iff.mp absent)
    have occurs : (functionDeclaration (String.ofList called)).occursIn others = true :=
      congrArg Option.isSome matched
    rw [missing, if_neg Bool.false_ne_true, if_pos occurs, replaceFirst_found matched there, start, stop]
    refine ⟨?_, isDeclared_function filled letters there _⟩
    simp only [NamedPlace.text, List.append_assoc]

/-- Where nothing is moved, nothing is changed. -/
theorem nameTrailing_of_none (unmoved : trailingPlace? text = none) : nameTrailing text = text := by
  unfold nameTrailing
  cases matched : trailingDefault.search text with
  | none => rfl
  | some found =>
    rw [trailingPlace?, matched, Option.bind_some] at unmoved
    dsimp only at unmoved ⊢
    obtain ⟨variable_, function⟩ := Option.or_eq_none_iff.mp unmoved
    rw [occursIn_of_none (Option.map_eq_none_iff.mp variable_), if_neg Bool.false_ne_true,
      occursIn_of_none (Option.map_eq_none_iff.mp function), if_neg Bool.false_ne_true]

/-- One `default` that is taken away, between what stands in front of it and what is made of the text behind it. -/
theorem append_splice_cons (first : Match) (later : List Match) (offset : Nat) (front text : List Char) :
    front ++ splice namedInline (first :: later) offset text =
      front ++ text.take (first.start - offset) ++ ("export ".toList ++ (groupText first 1 ++ ' ' ::
        (groupText first 2 ++ splice namedInline later first.stop (text.drop (first.stop - offset))))) := by
  have inline : namedInline first = "export ".toList ++ groupText first 1 ++ [' '] ++ groupText first 2 := rfl
  rw [splice, inline]
  generalize "export ".toList = word
  generalize splice namedInline later _ _ = tail
  simp only [List.append_assoc, List.cons_append, List.nil_append]

/-- Where a `default` is taken away, the name is exported, and its declaration stands there. The induction is on the
matches. -/
theorem inlinePlaces_eq {place : NamedPlace} {matches_ : List Match} {offset : Nat} {front : List Char}
    (found : ∀ found ∈ matches_, ∃ place front rest,
      FoundAt inlineDefault.ignoreCase inlineDefault.regex place found front rest)
    (member : place ∈ inlinePlaces matches_ offset front text) :
    front ++ splice namedInline matches_ offset text = place.text ∧ place.IsDeclared := by
  induction matches_ generalizing offset front text with
  | nil => cases member
  | cons first later inductionHypothesis =>
    obtain ⟨⟨_, _, _, here⟩, others⟩ := List.forall_mem_cons.mp found
    have onward (further : place ∈ inlinePlaces later first.stop (front ++ text.take (first.start - offset) ++
        namedInline first) (text.drop (first.stop - offset))) :
        front ++ splice namedInline (first :: later) offset text = place.text ∧ place.IsDeclared := by
      obtain ⟨same, declared⟩ := inductionHypothesis others further
      refine ⟨?_, declared⟩
      rw [← same, splice]
      simp only [List.append_assoc]
    rw [inlinePlaces] at member
    split at member
    · next ends =>
      rcases List.mem_cons.mp member with rfl | further
      · obtain ⟨_, _, _, _, _, _, _, _, _, _, ⟨_, words⟩, ⟨_, letters⟩⟩ := found_inlineDefault here
        refine ⟨?_, groupText first 1 ++ [' '], _, ?_, takes_declarationWords words _, filled_nameLetters letters,
          fun c member => isNamePart_of_isWord (takes_nameLetters letters c member), endsName_iff.mp ends⟩
        · exact append_splice_cons first later offset front text
        · simp only [List.append_assoc, List.cons_append, List.nil_append]
      · exact onward further
    · exact onward member

/-- A pass makes a text of each place where it names an export, and the name is declared there. -/
theorem nameExports_eq {place : NamedPlace} (member : place ∈ namedPlaces text) :
    nameExports text = place.text ∧ place.IsDeclared := by
  unfold namedPlaces at member
  rw [nameExports]
  split at member
  · next moved =>
    rw [List.mem_singleton.mp member]
    exact nameTrailing_eq moved
  · next unmoved =>
    rw [nameTrailing_of_none unmoved]
    exact inlinePlaces_eq (fun found listed => foundAt_matchesFrom listed) member

/-! What the reader makes of a place. -/

/-- How something is exported, and under which name. -/
def offer (fact : ExportFact) : ExportKind × String := (fact.kind, fact.name)

/-- A source exports one name as its default, beside other exports. -/
def HasDefault (file : SourceFile) (default : ExportFact) (others : List ExportFact) : Prop :=
  default.kind = .default ∧ default.anonymous = false ∧ (∀ fact ∈ others, fact.kind ≠ .default) ∧
    ∃ before after, file.facts.exports = before ++ default :: after ∧ others = before ++ after

/-- A pass names the default export of a source where a statement of the text that it makes begins, and the other
statements of that text export what the source exports beside its default. -/
structure MeetsStatement (file fixed : SourceFile) (default : ExportFact) (others : List ExportFact)
    (place : NamedPlace) : Prop where
  named : place ∈ namedPlaces file.source
  name : String.ofList place.name = default.name
  begins : ∀ dialect, dialectOf fixed.path.suffix = .ok dialect →
    byteLength place.front ∈ statementBytes dialect fixed.source
  beside : (exportsBeside fixed.source fixed.tree (byteLength place.front)).map offer = others.map offer

/-- An export that is among some, by how and under which name. -/
theorem exists_of_offer {some_ others : List ExportFact} (same : some_.map offer = others.map offer)
    {fact : ExportFact} (member : fact ∈ others) :
    ∃ other ∈ some_, other.kind = fact.kind ∧ other.name = fact.name := by
  have offered : offer fact ∈ some_.map offer := same ▸ List.mem_map_of_mem member
  obtain ⟨other, listed, told⟩ := List.mem_map.mp offered
  exact ⟨other, listed, congrArg (·.1) told, congrArg (·.2) told⟩

/-- A named export and a default one, in front of whose declaration nothing looks like it. -/
def namedBesideDefault : List Char := "export const a = 1;\nconst b = 2;\nexport default b;\n".toList

/-- A default export of a variable, and in a comment in front of it what looks like the declaration. -/
def commentedDeclaration : List Char := "/*\nconst x = 1;\n*/\nconst x = 2;\nexport default x;\n".toList

end Conformance.Fix
