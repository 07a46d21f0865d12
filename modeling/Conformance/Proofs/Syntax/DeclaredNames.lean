import Conformance.Proofs.Syntax.Readings

/-!
# Declared names

What is read where the words of a declaration stand in front of a name is a declaration of that name: of a variable,
a function or a class.
-/

namespace Conformance.Syntax

open Syntax.Rule Text

variable {self : Self} {cursor stop : Cursor} {nodes : List Node} {source name tail : List Char}

/-! What is not read. -/

/-- A keyword is not read where another text stands. -/
theorem word_eq_none {text : String} {c d : Char} {rest others : List Char}
    (ahead : (nextToken cursor).rest = c :: rest) (letters : text.toList = d :: others) (other : d ≠ c) :
    word text cursor = none := by
  cases read : word text cursor with
  | none => rfl
  | some result =>
    have split := nameAt?_split (exists_of_word read).1
    rw [ahead, letters] at split
    exact absurd (List.cons.inj split).1.symm other

/-- A mark is not read where another character stands. -/
theorem mark_eq_none {text : String} {c d : Char} {rest others : List Char}
    (ahead : (nextToken cursor).rest = c :: rest) (letters : text.toList = d :: others) (other : d ≠ c) :
    mark text cursor = none := by
  cases read : mark text cursor with
  | none => rfl
  | some result =>
    obtain ⟨recognised, _⟩ := exists_of_leafOf read
    rw [startsWith_of_ne ahead letters other, if_neg Bool.false_ne_true] at recognised
    cases recognised

/-- The text of the name that is read is the name. -/
theorem NameAhead.nodeText (named : NameAhead cursor name tail) (reached : (Cursor.ofText source).Reaches cursor)
    (kind : Construct) {found : List Char} (read : nameAt? (nextToken cursor) = some (found, stop)) :
    Syntax.nodeText source ((leaf (.construct kind) (nextToken cursor) stop).withRole .name) =
      String.ofList name := by
  obtain rfl := (named.eq read).1
  exact congrArg String.ofList (text_between (reached.trans (Cursor.reaches_nextToken cursor))
    (Cursor.reaches_nameAt read) (nameAt?_split read))

/-! Declarations. -/

/-- A declaration of a name, as an export reads it: the name of one of its variables, or its own. -/
def DeclaresName (source : List Char) (declaration : Node) (name : String) : Prop :=
  (declaration.isAny [.lexicalDeclaration, .variableDeclaration] = true ∧
      ∃ declarator ∈ declaration.namedChildren, declarator.is .variableDeclarator = true ∧
        optionalText source (declarator.child? .name) = name) ∨
    (declaration.isAny [.lexicalDeclaration, .variableDeclaration] = false ∧
      ∃ node, declaration.child? .name = some node ∧ nodeText source node = name)

/-- What has been read is one declaration of a name, with comments in front of it. -/
def IsDeclaration (source : List Char) (name : String) (nodes : List Node) : Prop :=
  ∃ comments kind span children, nodes = comments ++ [.mk (.construct kind) none span children] ∧
    IsLead comments ∧ kind ≠ .comment ∧ DeclaresName source (.mk (.construct kind) none span children) name

/-- A rule reads words in front of a name. -/
def Leads (rule : Rule) (cursor : Cursor) (name tail : List Char) : Prop :=
  ∀ words behind, rule cursor = some (words, behind) →
    cursor.Reaches behind ∧ NameAhead behind name tail ∧ Roleless words

/-- A construct that names itself behind its words. -/
theorem isDeclaration_wrap (named : NameAhead cursor name tail)
    (reached : (Cursor.ofText source).Reaches cursor) {found : List Char} {behind : Cursor}
    (read : nameAt? (nextToken cursor) = some (found, behind)) {kind leafKind : Construct}
    (apart : kind ∉ [.comment, .lexicalDeclaration, .variableDeclaration]) (plain : leafKind ≠ .comment)
    {before : List Node} (roleless : Roleless before) (after : List Node) (last : Cursor) :
    IsDeclaration source (String.ofList name) (wrap kind (before ++
      ((gap cursor).1 ++ [leaf (.construct leafKind) (nextToken cursor) behind]).map (inRole .name) ++ after)
        last) := by
  have leads : Roleless (before ++ (gap cursor).1) :=
    List.forall_mem_append.mpr ⟨roleless, roleless_gapFrom _ _⟩
  have notComment : isComment ((leaf (.construct leafKind) (nextToken cursor) behind).withRole .name) = false := by
    simpa [isComment, Node.is, leaf, Node.withRole, Node.kind] using plain
  simp only [List.mem_cons, List.not_mem_nil, or_false, not_or] at apart
  rw [map_inRole_leaf plain, ← List.append_assoc, List.append_assoc, List.singleton_append]
  obtain ⟨span, same, _⟩ := wrap_append_cons notComment kind (before ++ (gap cursor).1) after last
  refine ⟨_, kind, span, _, same, isLead_takeWhile leads, apart.1,
    .inr ⟨?_, _, find?_role leads rfl after, named.nodeText reached leafKind read⟩⟩
  simp [Node.isAny, Node.is, Node.kind, apart]

/-- A declaration of variables names the first of them. -/
theorem isDeclaration_declarator (named : NameAhead cursor name tail)
    (reached : (Cursor.ofText source).Reaches cursor) {found : List Char} {behind : Cursor}
    (read : nameAt? (nextToken cursor) = some (found, behind)) {kind : Construct}
    (either : kind = .lexicalDeclaration ∨ kind = .variableDeclaration) {words : List Node}
    (roleless : Roleless words) (after others : List Node) (next last : Cursor) :
    IsDeclaration source (String.ofList name) (wrap kind (words ++ (wrap .variableDeclarator
      (((gap cursor).1 ++ [leaf (.construct .identifier) (nextToken cursor) behind]).map (inRole .name) ++ after)
        next ++ others)) last) := by
  have leads : Roleless (gap cursor).1 := roleless_gapFrom _ _
  have identifier : Construct.identifier ≠ .comment := by decide
  rw [map_inRole_leaf identifier, List.append_assoc, List.singleton_append]
  have notComment : isComment ((leaf (.construct .identifier) (nextToken cursor) behind).withRole .name) = false := rfl
  obtain ⟨within, inner, _⟩ := wrap_append_cons notComment .variableDeclarator (gap cursor).1 after next
  have front : Roleless (words ++ (gap cursor).1.takeWhile isComment) :=
    List.forall_mem_append.mpr ⟨roleless, fun node member => (isLead_takeWhile leads node member).2⟩
  rw [inner, List.append_assoc, List.singleton_append, ← List.append_assoc]
  have other (children : List Node) :
      isComment (.mk (.construct .variableDeclarator) none within children) = false := rfl
  obtain ⟨span, same, _⟩ := wrap_append_cons (other _) kind (words ++ (gap cursor).1.takeWhile isComment) others last
  refine ⟨_, kind, span, _, same, isLead_takeWhile front, ?_, .inl ⟨?_, _,
    List.mem_filter.mpr ⟨List.mem_append_right _ List.mem_cons_self, rfl⟩, rfl, ?_⟩⟩
  · rcases either with rfl | rfl <;> decide
  · rcases either with rfl | rfl <;> rfl
  · rw [Node.child?, Node.children, find?_role leads rfl after]
    exact named.nodeText reached .identifier read

/-- The name of a function stands behind its words. -/
theorem isDeclaration_function {next : Cursor} (reached : (Cursor.ofText source).Reaches cursor)
    (head : Leads (all [Rule.optional (word "async"), word "function"]) cursor name tail)
    (read : functionDeclaration self cursor = some (nodes, next)) :
    IsDeclaration source (String.ofList name) nodes := by
  have shape (more : List Node) {parts : List Node} {last : Cursor} {kind : Construct}
      (apart : kind ∉ [.comment, .lexicalDeclaration, .variableDeclaration])
      (told : (all [all [Rule.optional (word "async"), word "function"], Rule.optional (mark "*"),
        playing .name bindingName, callSignature self]) cursor = some (parts, last)) (stop : Cursor) :
      IsDeclaration source (String.ofList name) (wrap kind (parts ++ more) stop) := by
    obtain ⟨words, behind, _, begins, starred, rfl⟩ := exists_of_andThen told
    obtain ⟨way, named, roleless⟩ := head words behind begins
    obtain ⟨c, rest, token, apartFrom⟩ := named.exists_token
    have noStar : mark "*" behind = none := mark_eq_none token rfl (apartFrom '*' (by decide) (by decide))
    obtain ⟨stars, _, _, star, called, rfl⟩ := exists_of_andThen starred
    obtain ⟨rfl, rfl⟩ : stars = [] ∧ _ = behind := by
      rcases optional_cases star with one | ⟨_, none_, same⟩
      · rw [noStar] at one
        cases one
      · exact ⟨none_, same⟩
    obtain ⟨_, _, signature, bound, _, rfl⟩ := exists_of_andThen called
    obtain ⟨_, binds, rfl⟩ := exists_of_playing bound
    obtain ⟨found, leafRead, rfl⟩ := exists_of_plainName binds
    have identifier : Construct.identifier ≠ .comment := by decide
    have whole := isDeclaration_wrap named (reached.trans way) leafRead apart identifier roleless
      (signature ++ more) stop
    simpa only [List.nil_append, List.append_assoc] using whole
  unfold functionDeclaration at read
  dsimp only at read
  split at read
  · cases read
  · split at read
    · cases read
    · next told =>
      split at read
      · split at read
        · cases read
        · cases read
          split
          · exact shape _ (by decide) told _
          · exact shape _ (by decide) told _
      · split at read
        · cases read
        · cases read
          exact shape _ (by decide) told _

/-- The name of a class stands behind its words. -/
theorem isDeclaration_class {next : Cursor} (reached : (Cursor.ofText source).Reaches cursor)
    (plain : many (decorator self) cursor = some ([], cursor)) (concrete : word "abstract" cursor = none)
    (head : Leads (word "class") cursor name tail)
    (read : classDeclaration self cursor = some (nodes, next)) :
    IsDeclaration source (String.ofList name) nodes := by
  obtain ⟨rule, member, applies⟩ := exists_of_firstOf read
  rcases List.mem_cons.mp member with rfl | member
  · obtain ⟨_, inner, rfl⟩ := exists_of_construct applies
    obtain ⟨decorators, _, _, decorated, told, rfl⟩ := exists_of_andThen inner
    rw [plain] at decorated
    cases decorated
    obtain ⟨words, behind, _, begins, named, rfl⟩ := exists_of_andThen told
    obtain ⟨way, ahead, roleless⟩ := head words behind begins
    obtain ⟨_, _, rest, called, _, rfl⟩ := exists_of_andThen named
    unfold className at called
    dsimp only at called
    split at called
    · cases called
    · obtain ⟨_, names, rfl⟩ := exists_of_playing called
      obtain ⟨found, leafRead, rfl⟩ := exists_of_anyName names
      have kind : Construct.classDeclaration ∉
          [.comment, .lexicalDeclaration, .variableDeclaration] := by decide
      have identifier : Construct.typeIdentifier ≠ .comment := by decide
      have whole := isDeclaration_wrap ahead (reached.trans way) leafRead kind identifier roleless rest next
      simpa only [List.nil_append, List.append_assoc] using whole
  · obtain rfl := List.mem_singleton.mp member
    obtain ⟨_, inner, rfl⟩ := exists_of_construct applies
    obtain ⟨decorators, _, _, decorated, told, rfl⟩ := exists_of_andThen inner
    rw [plain] at decorated
    cases decorated
    obtain ⟨_, _, _, abstracted, _, rfl⟩ := exists_of_andThen told
    rw [concrete] at abstracted
    cases abstracted

/-- The name of the first variable stands behind the word that declares it. -/
theorem isDeclaration_variable {next : Cursor} (reached : (Cursor.ofText source).Reaches cursor)
    (head : Leads (wordOf ["var", "let", "const"]) cursor name tail)
    (read : variableStatement self cursor = some (nodes, next)) :
    IsDeclaration source (String.ofList name) nodes := by
  obtain ⟨parts, told, rfl⟩ := exists_of_construct read
  obtain ⟨words, behind, _, begins, declared, rfl⟩ := exists_of_andThen told
  obtain ⟨way, named, roleless⟩ := head words behind begins
  obtain ⟨c, rest, token, apartFrom⟩ := named.exists_token
  have noBrace : nextIs behind "\x7b" = false :=
    startsWith_of_ne token rfl (apartFrom '\x7b' (by decide) (by decide))
  have noBracket : nextIs behind "[" = false := startsWith_of_ne token rfl (apartFrom '[' (by decide) (by decide))
  obtain ⟨_, _, ending, list, _, rfl⟩ := exists_of_andThen declared
  obtain ⟨_, _, others, one, _, rfl⟩ := exists_of_andThen list
  obtain ⟨_, inner, rfl⟩ := exists_of_construct one
  obtain ⟨_, _, after, bound, _, rfl⟩ := exists_of_andThen inner
  obtain ⟨_, binds, rfl⟩ := exists_of_playing bound
  rw [noBrace, noBracket, if_neg Bool.false_ne_true, if_neg Bool.false_ne_true] at binds
  obtain ⟨found, leafRead, rfl⟩ := exists_of_plainName binds
  rw [List.append_assoc]
  refine isDeclaration_declarator named (reached.trans way) leafRead ?_ roleless after (others ++ ending) _ next
  split
  · exact .inr rfl
  · exact .inl rfl

/-! Words of declarations. -/

/-- The words of a declaration in front of its name, with what stands behind the name. -/
inductive Declares : (words tail : List Char) → Prop
  | ofVariable {kind : String} {gap blanks more : List Char} {mark : Char} (listed : kind ∈ ["const", "let", "var"])
      (spaced : Spacing gap) (blank : ∀ c ∈ blanks, isBlank c = true) (marked : mark ∈ ['=', ':']) :
      Declares (kind.toList ++ gap) (blanks ++ mark :: more)
  | ofFunction {gap : List Char} (spaced : Spacing gap) (tail : List Char) : Declares ("function".toList ++ gap) tail
  | ofAsync {first gap : List Char} (divided : Spacing first) (spaced : Spacing gap) (tail : List Char) :
      Declares ("async".toList ++ (first ++ ("function".toList ++ gap))) tail
  | ofClass {gap : List Char} (spaced : Spacing gap) (tail : List Char) : Declares ("class".toList ++ gap) tail

/-- A keyword stands in front of a name. -/
theorem leads_word {word_ gap : List Char} {text : String} (whole : WholeName name tail) (spaced : Spacing gap)
    (ahead : NameAhead cursor word_ (gap ++ (name ++ tail))) : Leads (word text) cursor name tail := by
  intro words behind read
  obtain ⟨found, rfl⟩ := exists_of_word read
  have way := (Cursor.reaches_nextToken cursor).trans (Cursor.reaches_nameAt found)
  exact ⟨way, .ofBlanks whole (ahead.counted.reaches way) spaced.blank (ahead.eq found).2, roleless_leaf _⟩

/-- One of some keywords stands in front of a name. -/
theorem leads_wordOf {word_ gap : List Char} {texts : List String} (whole : WholeName name tail)
    (spaced : Spacing gap) (ahead : NameAhead cursor word_ (gap ++ (name ++ tail))) :
    Leads (wordOf texts) cursor name tail := by
  intro words behind read
  obtain ⟨text, _, applies⟩ := exists_of_wordOf read
  exact leads_word whole spaced ahead words behind applies

/-- The word of a function stands in front of a name. -/
theorem leads_function {gap : List Char} (whole : WholeName name tail) (spaced : Spacing gap)
    (ahead : NameAhead cursor "function".toList (gap ++ (name ++ tail))) :
    Leads (all [Rule.optional (word "async"), word "function"]) cursor name tail := by
  intro words behind read
  obtain ⟨_, _, _, begins, told, rfl⟩ := exists_of_andThen read
  rcases optional_cases begins with async | ⟨_, rfl, rfl⟩
  · have same := (ahead.eq (exists_of_word async).1).1
    exact absurd same (by decide)
  · exact leads_word whole spaced ahead _ behind told

/-- The words of an asynchronous function stand in front of a name. -/
theorem leads_async {first gap : List Char} (whole : WholeName name tail) (divided : Spacing first)
    (spaced : Spacing gap)
    (ahead : NameAhead cursor "async".toList (first ++ ("function".toList ++ (gap ++ (name ++ tail))))) :
    Leads (all [Rule.optional (word "async"), word "function"]) cursor name tail := by
  intro words behind read
  obtain ⟨_, between, _, begins, told, rfl⟩ := exists_of_andThen read
  have keyword : WholeName "function".toList (gap ++ (name ++ tail)) :=
    ⟨by decide, List.all_eq_true.mp (by decide), spaced.endsName _⟩
  rcases optional_cases begins with async | ⟨_, rfl, rfl⟩
  · obtain ⟨way, named, roleless⟩ := leads_word keyword divided ahead _ between async
    obtain ⟨onward, further, others⟩ := leads_word whole spaced named _ behind told
    exact ⟨way.trans onward, further, List.forall_mem_append.mpr ⟨roleless, others⟩⟩
  · have same := (ahead.eq (exists_of_word told).1).1
    exact absurd same (by decide)

/-- Whether a word is read as a name. -/
def isPlainWord (word : List Char) : Bool :=
  word.all isNamePart && word.head?.any fun c => !c.isDigit

/-- A word that is ahead is the next name. -/
theorem nextName_word {word gap rest : List Char} (counted : cursor.Whole) (plain : isPlainWord word = true)
    (spaced : Spacing gap) (ahead : (nextToken cursor).rest = word ++ (gap ++ rest)) :
    nextName cursor = String.ofList word ∧ NameAhead cursor word (gap ++ rest) ∧
      nameAt? (nextToken cursor) = some (word, behindName cursor) := by
  obtain ⟨parts, begins⟩ := Bool.and_eq_true_iff.mp plain
  have letters := List.all_eq_true.mp parts
  have ends := spaced.endsName rest
  cases word with
  | nil => cases begins
  | cons c word =>
    have digit : c.isDigit = false := by simpa using begins
    rcases nameAt?_word counted.nextToken ahead letters ends with ⟨other, _⟩ | ⟨_, next, read, _⟩
    · rw [digit] at other
      cases other
    · rw [nextName, behindName, read]
      exact ⟨rfl, ⟨⟨List.cons_ne_nil c word, letters, ends⟩, counted, .inl ahead⟩, rfl⟩

/-- No decorator is read where another character stands. -/
theorem decorator_eq_none {c : Char} {rest : List Char} (token : (nextToken cursor).rest = c :: rest)
    (other : '@' ≠ c) : decorator self cursor = none := by
  cases read : decorator self cursor with
  | none => rfl
  | some result =>
    obtain ⟨_, inner, _⟩ := exists_of_construct read
    obtain ⟨_, _, _, marked, _, _⟩ := exists_of_andThen inner
    rw [mark_eq_none token rfl other] at marked
    cases marked

/-- No enumeration is read where a variable is declared. -/
theorem enumDeclaration_eq_none {gap blanks more : List Char} {mark_ : Char} {kind : String}
    (listed : kind ≠ "enum") (whole : WholeName name (blanks ++ mark_ :: more)) (spaced : Spacing gap)
    (blank : ∀ c ∈ blanks, isBlank c = true) (marked : mark_ ∈ ['=', ':'])
    (ahead : NameAhead cursor kind.toList (gap ++ (name ++ (blanks ++ mark_ :: more)))) :
    enumDeclaration self cursor = none := by
  cases read : enumDeclaration self cursor with
  | none => rfl
  | some result =>
    exfalso
    obtain ⟨_, inner, _⟩ := exists_of_construct read
    obtain ⟨_, between, _, begins, told, _⟩ := exists_of_andThen inner
    obtain ⟨_, behind, _, enum, named, _⟩ := exists_of_andThen told
    have ends : behind.Whole ∧ behind.rest = blanks ++ mark_ :: more := by
      rcases optional_cases begins with const | ⟨_, _, rfl⟩
      · obtain ⟨_, further, _⟩ := leads_word whole spaced ahead _ between const
        have found := (exists_of_word enum).1
        exact ⟨further.counted.reaches ((Cursor.reaches_nextToken _).trans (Cursor.reaches_nameAt found)),
          (further.eq found).2⟩
      · exact absurd (String.toList_injective (ahead.eq (exists_of_word enum).1).1).symm listed
    have visible : isGap mark_ = false ∧ mark_ ≠ '/' ∧ isNameStart mark_ = false ∧ mark_ ≠ '\\' := by
      simp only [List.mem_cons, List.not_mem_nil, or_false] at marked
      rcases marked with rfl | rfl <;> decide
    obtain ⟨_, _, _, bound, _, _⟩ := exists_of_andThen named
    obtain ⟨_, binds, _⟩ := exists_of_playing bound
    obtain ⟨found, leafRead, _⟩ := exists_of_plainName binds
    obtain ⟨d, others, token, which⟩ := exists_nextToken ends.1 blank visible.1 visible.2.1 ends.2
    rcases which with same | solid
    · rw [(List.cons.inj same).1] at token
      rw [nameAt?_eq_none token visible.2.2.2 visible.2.2.1] at leafRead
      cases leafRead
    · rw [nameAt?_eq_none_of_blank token solid] at leafRead
      cases leafRead

/-- What is read where the words of a declaration stand in front of a name declares the name. -/
theorem isDeclaration_of_read {words : List Char} {next : Cursor} (counted : cursor.Whole)
    (reached : (Cursor.ofText source).Reaches cursor) (declares : Declares words tail)
    (whole : WholeName name tail) (ahead : (nextToken cursor).rest = words ++ (name ++ tail))
    (read : declarationRule self cursor = some (nodes, next)) :
    IsDeclaration source (String.ofList name) nodes := by
  unfold declarationRule at read
  dsimp only at read
  cases declares with
  | @ofVariable kind gap blanks more mark_ listed spaced blank marked =>
    rw [List.append_assoc] at ahead
    have plain : isPlainWord kind.toList = true :=
      (by decide : ∀ kind ∈ ["const", "let", "var"], isPlainWord kind.toList = true) kind listed
    obtain ⟨told, named, _⟩ := nextName_word counted plain spaced ahead
    rw [String.ofList_toList] at told
    have other : kind ≠ "enum" := by
      rintro rfl
      revert listed
      decide
    have noEnum : enumDeclaration self cursor = none :=
      enumDeclaration_eq_none other whole spaced blank marked named
    have statement : variableStatement self cursor = some (nodes, next) := by
      simp only [List.mem_cons, List.not_mem_nil, or_false] at listed
      rcases listed with rfl | rfl | rfl
      · simp only [noEnum] at read
        exact (by simpa [told, named.nextIs_eq_false] using read : _ ∧ _).2
      · simpa [told, named.nextIs_eq_false] using read
      · simpa [told, named.nextIs_eq_false] using read
    exact isDeclaration_variable reached (leads_wordOf whole spaced named) statement
  | ofFunction spaced tail =>
    rw [List.append_assoc] at ahead
    obtain ⟨told, named, _⟩ := nextName_word counted (by decide) spaced ahead
    rw [told, if_pos (.inl (by decide))] at read
    exact isDeclaration_function reached (leads_function whole spaced named) read
  | ofAsync divided spaced tail =>
    rw [List.append_assoc, List.append_assoc, List.append_assoc] at ahead
    obtain ⟨told, named, _⟩ := nextName_word counted (by decide) divided ahead
    by_cases function : nextIsWord (behindName cursor) "function" = true
    · rw [told, if_pos (.inr ⟨by decide, function⟩)] at read
      exact isDeclaration_function reached (leads_async whole divided spaced named) read
    · simp [told, function, named.nextIs_eq_false] at read
  | ofClass spaced tail =>
    rw [List.append_assoc] at ahead
    obtain ⟨told, named, _⟩ := nextName_word counted (by decide) spaced ahead
    have undecorated : many (decorator self) cursor = some ([], cursor) :=
      many_of_none (decorator_eq_none ahead (by decide))
    rw [told, if_neg (by simp), if_pos (.inl (by decide))] at read
    exact isDeclaration_class reached undecorated (word_eq_none ahead rfl (by decide)) (leads_word whole spaced named)
      read

end Conformance.Syntax
