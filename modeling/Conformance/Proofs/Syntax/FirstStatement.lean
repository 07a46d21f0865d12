import Conformance.Proofs.Syntax.FirstNode
import Conformance.Proofs.Syntax.Rules
import Conformance.Syntax.Facts

/-!
# The directives of a text

The directives of a text are in its first statement, if that is a quoted text. What the reader reads
first decides on them, whether or not it reads the text to its end.
-/

namespace Conformance.Syntax

open Syntax.Rule

/-- The tree of what is read of a text, up to its end or to where no statement begins. -/
def treeSoFar (dialect : Dialect) (source : List Char) : Node :=
  let start := (Cursor.ofText source).skipWhile isGap
  let (interpreter, behind) := match hashBang start with
    | some result => result
    | none => ([], start)
  let (nodes, last) := statements dialect source behind
  let (comments, stop) := gap last
  .mk (.construct .program) none ⟨start.byte, stop.byte, start.row⟩ (interpreter ++ nodes ++ comments)

variable {dialect : Dialect} {source : List Char} {root node : Node} {rest : List Node}

/-- A text that is read to its end has the tree of what is read of it. -/
theorem treeSoFar_of_readTree {tree : Node} (read : readTree dialect source = .ok tree) :
    tree = treeSoFar dialect source := by
  unfold readTree at read
  unfold treeSoFar
  dsimp only at read ⊢
  cases found : hashBang ((Cursor.ofText source).skipWhile isGap) with
  | none =>
    rw [found] at read
    dsimp only at read ⊢
    split at read
    · cases read
      rfl
    · cases read
  | some result =>
    rw [found] at read
    dsimp only at read ⊢
    split at read
    · cases read
      rfl
    · cases read

/-! The first statement. -/

/-- The directives are looked for in the first node that is no comment. -/
theorem find?_directive (same : root.children.dropWhile isComment = node :: rest)
    (notLine : node.is .hashBangLine = false) :
    (root.children.find? fun child => !child.isAny [.comment, .hashBangLine]) = some node := by
  have notComment : node.is .comment = false := by
    have first := List.head?_dropWhile_not isComment root.children
    rwa [same] at first
  have comments : ((root.children.takeWhile isComment).find? fun child =>
      !child.isAny [.comment, .hashBangLine]) = none := by
    rw [List.find?_eq_none]
    intro child member
    have comment : isComment child = true := List.mem_takeWhile_imp member
    simp [Node.isAny, show child.is .comment = true from comment]
  rw [← List.takeWhile_append_dropWhile (p := isComment) (l := root.children), List.find?_append, comments,
    same, Option.none_or, List.find?_cons_of_pos]
  simp [Node.isAny, notComment, notLine]

/-- A first statement that is no quoted text has no directives. -/
theorem directives_of_unquoted (same : root.children.dropWhile isComment = node :: rest)
    (unquoted : IsUnquoted node) : directives source root = (false, false) := by
  unfold directives
  rcases unquoted with apart | ⟨statement, value, parts, children, apart⟩
  · rw [find?_directive same (is_of_isApart apart (by decide))]
    dsimp only
    rw [is_of_isApart apart (by decide)]
    rfl
  · have notLine : node.is .hashBangLine = false := by
      rw [Node.is, eq_of_beq statement]
      rfl
    rw [find?_directive same notLine]
    dsimp only
    obtain ⟨named, begins⟩ := namedChildren_of_isApart children apart
    rw [statement, begins]
    dsimp only
    rw [is_of_isApart apart (by decide)]
    rfl

/-- Comments alone have no directives. -/
theorem directives_of_comments (comments : ∀ child ∈ root.children, isComment child = true) :
    directives source root = (false, false) := by
  have none : (root.children.find? fun child => !child.isAny [.comment, .hashBangLine]) = none := by
    rw [List.find?_eq_none]
    intro child member
    have comment : child.is .comment = true := comments child member
    simp [Node.isAny, comment]
  unfold directives
  rw [none]

/-- A statement that is read in front stays in front. -/
theorem statements_of_read {start next : Cursor} {before : List Node}
    (read : readNested dialect (depthBound source) .statement start = some (before, next))
    (onward : next.left < start.left) : ∃ after, (statements dialect source start).1 = before ++ after := by
  unfold statements many manyUpTo
  rw [read]
  dsimp only
  rw [if_pos onward]
  cases manyUpTo start.left (readNested dialect (depthBound source) .statement) next with
  | none => exact ⟨[], (List.append_nil _).symm⟩
  | some result => exact ⟨result.1, rfl⟩

/-- The first statement stands in front, or nothing is read. -/
theorem statements_cases (dialect : Dialect) (source : List Char) (start : Cursor) :
    (statements dialect source start).1 = [] ∨ ∃ before next after,
      readNested dialect (depthBound source) .statement start = some (before, next) ∧
        (statements dialect source start).1 = before ++ after := by
  cases read : readNested dialect (depthBound source) .statement start with
  | none =>
    left
    unfold statements many manyUpTo
    rw [read]
  | some result =>
    obtain ⟨before, next⟩ := result
    by_cases onward : next.left < start.left
    · obtain ⟨after, same⟩ := statements_of_read read onward
      exact .inr ⟨before, next, after, rfl, same⟩
    · left
      unfold statements many manyUpTo
      rw [read]
      dsimp only
      rw [if_neg onward]

/-- Where the first token is no hash sign, no line names an interpreter. -/
theorem hashBang_skipWhile (other : firstCharacter? source ≠ some '#') :
    hashBang ((Cursor.ofText source).skipWhile isGap) = none := by
  unfold hashBang
  rw [if_neg]
  intro begins
  obtain ⟨more, ahead⟩ := List.isPrefixOf_iff_prefix.mp begins
  rw [Cursor.rest_skipWhile] at ahead
  change '#' :: ('!' :: more) = source.dropWhile isGap at ahead
  have noGap : NoGap ('#' :: ('!' :: more)) :=
    ⟨by rintro c ⟨⟩; decide, commentLength?_cons_of_ne (by decide) _⟩
  exact other (firstCharacter?_eq (ahead ▸ skips_dropWhile source) noGap)

/-- The nodes below the root, where no line names an interpreter. -/
theorem children_treeSoFar (dialect : Dialect) (other : firstCharacter? source ≠ some '#') :
    (treeSoFar dialect source).children =
      (statements dialect source ((Cursor.ofText source).skipWhile isGap)).1 ++
        (gap (statements dialect source ((Cursor.ofText source).skipWhile isGap)).2).1 := by
  unfold treeSoFar
  dsimp only
  rw [hashBang_skipWhile other]
  rfl

/-- **Directives stand behind a quotation mark.** A text whose first token does not begin with a quotation
mark or a hash sign has no directives. -/
theorem directives_treeSoFar (plain : ∀ c ∈ firstCharacter? source, c ≠ '"' ∧ c ≠ '\'' ∧ c ≠ '#') :
    directives source (treeSoFar dialect source) = (false, false) := by
  have ahead : (nextToken ((Cursor.ofText source).skipWhile isGap)).peek? = firstCharacter? source :=
    congrArg List.head? (Cursor.whole_ofText source).rest_nextToken_skipWhile
  have children := children_treeSoFar dialect fun same => (plain '#' same).2.2 rfl
  generalize (Cursor.ofText source).skipWhile isGap = start at ahead children
  rcases statements_cases dialect source start with nothing | ⟨before, next, after, read, same⟩
  · rw [nothing, List.nil_append] at children
    refine directives_of_comments ?_
    rw [children]
    exact isComment_of_mem_gapFrom
  · have begins : BeginsUnquoted (readNested dialect (depthBound source) .statement start) := by
      refine beginsUnquoted_statement dialect (depthBound source) fun c member => ?_
      rw [ahead] at member
      exact ⟨(plain c member).1, (plain c member).2.1⟩
    obtain ⟨node, rest, first, unquoted⟩ := begins before next read
    have whole : (treeSoFar dialect source).children.dropWhile isComment =
        node :: (rest ++ (after ++ (gap (statements dialect source start).2).1)) := by
      rw [children, same, List.append_assoc, List.dropWhile_append, first]
      rfl
    exact directives_of_unquoted whole unquoted

end Conformance.Syntax

/-!
## A quoted text as first statement

A text in quotation marks with a semicolon behind it is read as a statement: no member, operator or further
value can be read in front of the semicolon. So a text that begins with such a statement has the directives
that the quoted text mentions.
-/

namespace Conformance.Syntax

open Syntax.Rule Text

variable {cursor next : Cursor} {rest : List Char}

/-- Where no blank and no comment is ahead the next token is here. -/
theorem gap_of_noGap (noGap : NoGap cursor.rest) : gap cursor = ([], cursor) := by
  unfold gap
  cases cursor.left with
  | zero => rfl
  | succ bound =>
    unfold gapFrom
    split
    · rfl
    · next c rest ahead =>
      have visible : isGap c = false := noGap.visible c (congrArg List.head? ahead)
      rw [visible, if_neg Bool.false_ne_true]
      split
      · rw [commentEnd?_eq, noGap.plain]
        rfl
      · rfl

/-- No name begins with a character that neither begins nor escapes one. -/
theorem nameAt?_eq_none {c : Char} (ahead : cursor.rest = c :: rest) (escape : c ≠ '\\')
    (barrier : isNameStart c = false) : nameAt? cursor = none := by
  have length (bound : Nat) : nameLength bound true (c :: rest) = 0 := by
    cases bound with
    | zero => rfl
    | succ bound => rw [nameLength, if_neg escape, if_pos rfl, barrier, if_neg Bool.false_ne_true]
  rw [nameAt?, ahead, length]
  rfl

/-- A character that neither begins a name nor escapes one. -/
theorem nextName_eq_empty {c : Char} (ahead : (nextToken cursor).rest = c :: rest) (escape : c ≠ '\\')
    (barrier : isNameStart c = false) : nextName cursor = "" := by
  rw [nextName, nameAt?_eq_none ahead escape barrier]

/-- A text with another first character does not begin here. -/
theorem startsWith_of_ne {c d : Char} {text : String} {others : List Char} (ahead : cursor.rest = c :: rest)
    (begins : text.toList = d :: others) (other : d ≠ c) : cursor.startsWith text = false := by
  rw [Cursor.startsWith, begins, ahead, List.isPrefixOf, beq_false_of_ne other, Bool.false_and]

/-! In front of a semicolon. -/

section Semicolon

variable {self : Self} {mode : Mode} {nodes before : List Node} (ahead : cursor.rest = ';' :: rest)
include ahead

theorem gap_semicolon : gap cursor = ([], cursor) := by
  apply gap_of_noGap
  rw [ahead]
  exact ⟨by rintro c ⟨⟩; decide, commentLength?_cons_of_ne (by decide) rest⟩

theorem nextToken_semicolon : nextToken cursor = cursor := congrArg Prod.snd (gap_semicolon ahead)

theorem nextIs_semicolon {d : Char} {text : String} {others : List Char} (begins : text.toList = d :: others)
    (other : d ≠ ';') : nextIs cursor text = false := by
  rw [nextIs, nextToken_semicolon ahead]
  exact startsWith_of_ne ahead begins other

theorem nextName_semicolon : nextName cursor = "" :=
  nextName_eq_empty ((congrArg Cursor.rest (nextToken_semicolon ahead)).trans ahead) (by decide) (by decide)

/-- A semicolon that stands here has not been left out. -/
theorem semicolonOmitted_semicolon (behindOperand : Bool) :
    semicolonOmitted behindOperand cursor = false := by
  unfold semicolonOmitted continuity
  rw [ahead]
  rfl

theorem endsHere_semicolon : endsHere mode cursor = false := by
  rw [endsHere, semicolonOmitted_semicolon ahead, Bool.and_false]

theorem operatorAt?_semicolon : operatorAt? cursor = none := by
  have first : ∀ mark ∈ operatorMarks, mark.toList.head?.any (· != ';') = true := by decide +kernel
  have none : operatorMarks.find? cursor.startsWith = none := by
    rw [List.find?_eq_none]
    intro mark member begins
    have unlike := first mark member
    rw [Cursor.startsWith, List.isPrefixOf_iff_prefix, ahead] at begins
    cases marked : mark.toList with
    | nil =>
      rw [marked] at unlike
      cases unlike
    | cons d others =>
      rw [marked, List.cons_prefix_cons] at begins
      rw [marked, begins.1] at unlike
      cases unlike
  unfold operatorAt?
  rw [none]

/-- No member and no call stands in front of a semicolon. -/
theorem tails_semicolon {calls : Bool} (bound : Nat) :
    tails self calls mode bound before cursor = (before, cursor) := by
  cases bound with
  | zero => rfl
  | succ bound =>
    have nothing : tailRule self calls cursor = none := by
      unfold tailRule
      dsimp only
      rw [nextToken_semicolon ahead, ahead]
      rfl
    unfold tails
    rw [endsHere_semicolon ahead, nothing]
    rfl

/-- No operator stands in front of a semicolon. -/
theorem binaryTail_semicolon {least : Nat} (bound : Nat) :
    binaryTail self mode least bound before cursor = (before, cursor) := by
  cases bound with
  | zero => rfl
  | succ bound =>
    unfold binaryTail
    dsimp only
    rw [endsHere_semicolon ahead, nextName_semicolon ahead, nextToken_semicolon ahead,
      operatorAt?_semicolon ahead]
    rfl

/-- The semicolon ends a statement. -/
theorem semicolon_semicolon :
    semicolon cursor = some ([leaf (.token ";") cursor (cursor.step ';' rest)], cursor.step ';' rest) := by
  unfold semicolon semicolonAfter
  rw [semicolonOmitted_semicolon ahead, if_neg Bool.false_ne_true]
  have begins : cursor.startsWith ";" = true := by
    rw [Cursor.startsWith, ahead]
    rfl
  have behind : cursor.advance ";".length = cursor.step ';' rest := by
    change Cursor.advance 1 cursor = _
    rw [Cursor.advance, ahead]
    rfl
  unfold mark leafOf
  rw [gap_semicolon ahead]
  dsimp only
  rw [begins, if_pos rfl, behind]
  rfl

end Semicolon

/-! Behind quotation marks. -/

/-- A character that stands for itself between double quotation marks. -/
def isOrdinary (c : Char) : Bool := c != '"' && c != '\n' && c != '\r' && c != '\\'

section Quoted

variable {body more : List Char}

theorem quotedParts_end {plain : Char → Bool} {d : Char} (ahead : cursor.rest = d :: rest)
    (ends : plain d = false) (escape : d ≠ '\\') (bound : Nat) :
    quotedParts plain bound cursor = ([], cursor) := by
  cases bound with
  | zero => rfl
  | succ bound =>
    unfold quotedParts
    split
    · next others escaped =>
      rw [ahead] at escaped
      exact absurd (List.cons.inj escaped).1 escape
    · next c others _ same =>
      rw [ahead] at same
      rw [← (List.cons.inj same).1, ends]
      rfl
    · rfl

/-- Ordinary characters are passed up to the one that ends the quoted text. -/
theorem quotedParts_plain {plain : Char → Bool} {d : Char} (ahead : cursor.rest = body ++ d :: rest)
    (each : ∀ c ∈ body, plain c = true ∧ c ≠ '\\') (ends : plain d = false) (escape : d ≠ '\\')
    (bound : Nat) :
    ∃ parts, quotedParts plain (bound + 1) cursor = (parts, cursor.advance body.length) ∧
      (cursor.advance body.length).rest = d :: rest := by
  have left : (cursor.advance body.length).rest = d :: rest := by
    rw [Cursor.rest_advance, ahead, List.drop_left]
  cases body with
  | nil =>
    rw [List.nil_append] at ahead
    exact ⟨[], quotedParts_end ahead ends escape _, left⟩
  | cons c others =>
    have passed : cursor.skipWhile (fun c => plain c && c != '\\') = cursor.advance (c :: others).length := by
      rw [Cursor.skipWhile, ahead, List.takeWhile_append_of_pos, List.takeWhile_cons_of_neg, List.append_nil]
      · rw [ends]
        exact Bool.false_ne_true
      · intro c member
        simp [each c member]
    obtain ⟨stands, plainly⟩ := each c List.mem_cons_self
    unfold quotedParts
    split
    · next escaped =>
      rw [ahead] at escaped
      exact absurd (List.cons.inj escaped).1 plainly
    · next same =>
      rw [ahead] at same
      obtain ⟨rfl, _⟩ := List.cons.inj same
      rw [stands, if_pos rfl, passed]
      dsimp only
      rw [quotedParts_end left ends escape]
      exact ⟨_, rfl, left⟩
    · next same =>
      rw [ahead] at same
      cases same

/-- A construct whose first part is no comment reaches from the first part to the last one. -/
theorem wrap_closed {kind : Construct} {first last : Node} {middle : List Node} {stop : Cursor}
    (notComment : isComment first = false) : wrap kind (first :: (middle ++ [last])) stop =
      [.mk (.construct kind) none ⟨first.span.startByte, last.span.endByte, first.span.row⟩
        (first :: (middle ++ [last]))] := by
  have notFirst : ¬ isComment first = true := by
    rw [notComment]
    exact Bool.false_ne_true
  unfold wrap
  rw [List.takeWhile_cons_of_neg notFirst, List.dropWhile_cons_of_neg notFirst, ← List.cons_append]
  dsimp only
  rw [List.getLast?_concat]
  rfl

/-- What stands between two equal quotation marks is a quoted text. -/
theorem quotedText_eq {quote : Char} {start stop : Cursor} {comments parts : List Node}
    (begins : gap cursor = (comments, start)) (ahead : start.rest = quote :: rest)
    (reads : quotedParts (fun c => c != quote && c != '\n' && c != '\r') ((start.step quote rest).left + 1)
      (start.step quote rest) = (parts, stop))
    (closes : stop.rest = quote :: more) :
    ∃ parts, quotedText quote cursor = some (comments ++ [.mk (.construct .stringLiteral) none
      ⟨start.byte, (stop.step quote more).byte, start.row⟩ parts], stop.step quote more) := by
  unfold quotedText
  rw [begins]
  dsimp only
  rw [ahead]
  dsimp only
  rw [if_pos rfl, reads]
  dsimp only
  rw [closes]
  dsimp only
  rw [if_pos rfl, List.cons_append, wrap_closed rfl]
  exact ⟨_, rfl⟩

/-- A quoted text is read up to its second quotation mark. -/
theorem stringLiteral_quoted (ahead : (nextToken cursor).rest = '"' :: (body ++ '"' :: more))
    (ordinary : body.all isOrdinary = true) :
    ∃ parts finish, stringLiteral cursor = some ((gap cursor).1 ++ [.mk (.construct .stringLiteral) none
        ⟨(nextToken cursor).byte, finish.byte, (nextToken cursor).row⟩ parts], finish) ∧
      finish.rest = more ∧ (nextToken cursor).Reaches finish ∧ ((nextToken cursor).Whole → finish.Whole) := by
  have plain : ∀ c ∈ body, (c != '"' && c != '\n' && c != '\r') = true ∧ c ≠ '\\' := by
    intro c member
    simpa [isOrdinary, and_assoc] using List.all_eq_true.mp ordinary c member
  have begins : gap cursor = ((gap cursor).1, nextToken cursor) := rfl
  have inner : ((nextToken cursor).step '"' (body ++ '"' :: more)).rest = body ++ '"' :: more := rfl
  obtain ⟨_, passed, left⟩ := quotedParts_plain inner plain (by decide) (by decide) (Cursor.left _)
  obtain ⟨parts, reads⟩ := quotedText_eq begins ahead passed left
  refine ⟨parts, (((nextToken cursor).step '"' (body ++ '"' :: more)).advance body.length).step '"' more, ?_,
    rfl, ?_, fun whole => ?_⟩
  · unfold stringLiteral firstOf
    rw [reads]
  · exact ((Cursor.reaches_step _ _ _ ahead).trans (Cursor.reaches_advance _ _)).trans
      (Cursor.reaches_step _ _ _ left)
  · exact ((whole.step ahead).advance _).step left

end Quoted

/-! From a quotation mark to a semicolon. -/

section Rules

variable {self : Self} {dialect : Dialect} {mode : Mode} {nodes : List Node}

section Quote

variable (quote : (nextToken cursor).rest = '"' :: rest)
include quote

theorem nextName_quote : nextName cursor = "" := nextName_eq_empty quote (by decide) (by decide)

theorem primaryRule_quote : primaryRule self dialect mode cursor = stringLiteral cursor := by
  unfold primaryRule
  dsimp only
  rw [quote]
  rfl

theorem unaryRule_quote : unaryRule self dialect mode cursor = operandRule self dialect true mode cursor := by
  unfold unaryRule
  dsimp only
  rw [startsWith_of_ne quote rfl (by decide), startsWith_of_ne quote rfl (by decide), quote,
    nextName_quote quote]
  rfl

theorem expressionRule_quote : expressionRule self dialect mode cursor = assignmentRule self mode cursor := by
  unfold expressionRule
  dsimp only
  rw [startsWith_of_ne quote rfl (by decide), startsWith_of_ne quote rfl (by decide), nextName_quote quote]
  rfl

theorem statementRule_quote : statementRule self cursor = expressionStatement self cursor := by
  have noKeyword : keywordStatement self cursor = none := by
    unfold keywordStatement
    dsimp only
    rw [nextName_quote quote, if_pos rfl]
  unfold statementRule
  dsimp only
  rw [quote, noKeyword, nextName_quote quote]
  rfl

end Quote

section Semicolon

variable (ahead : next.rest = ';' :: rest)
include ahead

theorem operandRule_semicolon {calls : Bool}
    (read : primaryRule self dialect mode cursor = some (nodes, next)) :
    operandRule self dialect calls mode cursor = some (nodes, next) := by
  unfold operandRule
  rw [read]
  dsimp only
  rw [tails_semicolon ahead]
  dsimp only
  rw [nextIs_semicolon ahead rfl (by decide), nextIs_semicolon ahead rfl (by decide), if_neg]
  rintro ⟨_, increment | decrement, _⟩
  · cases increment
  · cases decrement

theorem assignmentRule_semicolon (read : self (.unary mode) cursor = some (nodes, next)) :
    assignmentRule self mode cursor = some (nodes, next) := by
  have operands : binaryRule self mode 0 cursor = some (nodes, next) := by
    unfold binaryRule
    rw [read]
    dsimp only
    rw [binaryTail_semicolon ahead]
  unfold assignmentRule
  dsimp only
  rw [operands]
  dsimp only
  rw [endsHere_semicolon ahead, nextToken_semicolon ahead, operatorAt?_semicolon ahead]
  rfl

theorem sequenceRule_semicolon (read : self (.expression mode) cursor = some (nodes, next)) :
    sequenceRule self mode cursor = some (nodes, next) := by
  unfold sequenceRule extended
  rw [read]
  dsimp only
  rw [nextIs_semicolon ahead rfl (by decide)]
  rfl

end Semicolon

end Rules

/-- A quoted text with a semicolon behind it is read as a statement, which ends behind the semicolon. -/
theorem readNested_quoted {dialect : Dialect} {depth : Nat} {body : List Char} (deep : 4 ≤ depth)
    (ahead : (nextToken cursor).rest = '"' :: (body ++ '"' :: ';' :: rest))
    (ordinary : body.all isOrdinary = true) :
    ∃ span parts finish nodes next, readNested dialect depth .statement cursor = some (nodes, next) ∧
      nodes.dropWhile isComment = [.mk (.construct .expressionStatement) none span
        [.mk (.construct .stringLiteral) none
          ⟨(nextToken cursor).byte, finish.byte, (nextToken cursor).row⟩ parts,
        leaf (.token ";") finish next]] ∧
      finish.rest = ';' :: rest ∧ (nextToken cursor).Reaches finish ∧
        (cursor.Whole → next.left < cursor.left) := by
  obtain ⟨depth, rfl⟩ : ∃ less, depth = less + 4 := ⟨depth - 4, by omega⟩
  obtain ⟨parts, finish, literal, behind, reached, whole⟩ := stringLiteral_quoted ahead ordinary
  have unary : readNested dialect (depth + 1) (.unary Mode.statement) cursor = _ :=
    (unaryRule_quote ahead).trans (operandRule_semicolon behind ((primaryRule_quote ahead).trans literal))
  have expression : readNested dialect (depth + 2) (.expression Mode.statement) cursor = _ :=
    (expressionRule_quote ahead).trans (assignmentRule_semicolon behind unary)
  have sequence : readNested dialect (depth + 3) (.sequence Mode.statement) cursor = _ :=
    sequenceRule_semicolon behind expression
  have statement : readNested dialect (depth + 4) .statement cursor =
      construct .expressionStatement
        (andThen (readNested dialect (depth + 3) (.sequence Mode.statement)) semicolon) cursor :=
    statementRule_quote ahead
  rw [construct, andThen, sequence] at statement
  dsimp only at statement
  rw [semicolon_semicolon behind] at statement
  have apart : Construct.expressionStatement ≠ .comment := by decide
  obtain ⟨span, same⟩ := dropWhile_wrap apart ((gap cursor).1 ++ [.mk (.construct .stringLiteral) none
    ⟨(nextToken cursor).byte, finish.byte, (nextToken cursor).row⟩ parts] ++
      [leaf (.token ";") finish (finish.step ';' rest)]) (finish.step ';' rest)
  refine ⟨span, parts, finish, _, _, statement, ?_, behind, reached, fun counted => ?_⟩
  · have comments : (gap cursor).1.dropWhile isComment = [] :=
      List.dropWhile_eq_nil_iff.mpr isComment_of_mem_gapFrom
    rw [same, List.append_assoc, List.dropWhile_append, comments]
    rfl
  · obtain ⟨passed, split, _⟩ := Cursor.reaches_nextToken cursor
    have size := congrArg List.length split
    rw [ahead] at size
    have left : finish.left = finish.rest.length := whole counted.nextToken
    change finish.left - 1 < cursor.left
    rw [left, behind, show cursor.left = cursor.rest.length from counted, size]
    simp only [List.length_append, List.length_cons]
    omega

/-- What stands between two places of a text. -/
theorem text_between {source passed : List Char} {start stop : Cursor} {kind : Kind} {role : Option Role}
    {row : Nat} {children : List Node} (reached : (Cursor.ofText source).Reaches start)
    (between : start.Reaches stop) (split : start.rest = passed ++ stop.rest) :
    (Node.mk kind role ⟨start.byte, stop.byte, row⟩ children).text source = passed := by
  obtain ⟨before, whole, byte, _⟩ := reached
  obtain ⟨inner, same, width, _⟩ := between
  obtain rfl : inner = passed := List.append_cancel_right (same.symm.trans split)
  change source = before ++ start.rest at whole
  change start.byte = 0 + byteLength before at byte
  rw [Node.text, Node.span]
  dsimp only
  rw [width, byte, Nat.zero_add, Nat.add_sub_cancel_left, whole, dropBytes_byteLength, same,
    takeBytes_byteLength]

/-- **A quoted text as first statement.** A text whose first token begins a quoted text with a semicolon
behind it has the directives that the quoted text mentions. -/
theorem directives_quoted {source body : List Char} (dialect : Dialect)
    (leads : Skips source ('"' :: (body ++ '"' :: ';' :: rest))) (ordinary : body.all isOrdinary = true) :
    directives source (treeSoFar dialect source) =
      (occursIn "use client".toList ('"' :: (body ++ ['"'])),
        occursIn "use server".toList ('"' :: (body ++ ['"']))) := by
  have noGap : NoGap ('"' :: (body ++ '"' :: ';' :: rest)) :=
    ⟨by rintro c ⟨⟩; decide, commentLength?_cons_of_ne (by decide) _⟩
  have whole : ((Cursor.ofText source).skipWhile isGap).Whole := (Cursor.whole_ofText source).advance _
  have ahead : (nextToken ((Cursor.ofText source).skipWhile isGap)).rest =
      '"' :: (body ++ '"' :: ';' :: rest) := by
    rw [(Cursor.whole_ofText source).rest_nextToken_skipWhile]
    exact (Cursor.whole_ofText source).rest_nextToken_iff.mpr ⟨leads, noGap⟩
  have other : firstCharacter? source ≠ some '#' := by
    rw [firstCharacter?_eq leads noGap, List.head?_cons]
    decide
  have children := children_treeSoFar dialect other
  have reached := (Cursor.reaches_skipWhile isGap (Cursor.ofText source)).trans (Cursor.reaches_nextToken _)
  generalize (Cursor.ofText source).skipWhile isGap = start at whole ahead children reached
  have deep : 4 ≤ depthBound source := by
    unfold depthBound
    omega
  obtain ⟨span, parts, finish, nodes, next, read, first, behind, between, onward⟩ :=
    readNested_quoted deep ahead ordinary
  obtain ⟨after, same⟩ := statements_of_read read (onward whole)
  rw [same, List.append_assoc] at children
  have begins := congrArg (List.dropWhile isComment) children
  rw [List.dropWhile_append, first] at begins
  have split : (nextToken start).rest = '"' :: (body ++ ['"']) ++ finish.rest := by
    rw [ahead, behind]
    simp
  unfold directives
  rw [find?_directive begins rfl]
  change (occursIn _ (Node.text source (.mk (.construct .stringLiteral) none _ parts)),
    occursIn _ (Node.text source (.mk (.construct .stringLiteral) none _ parts))) = _
  rw [text_between reached between split]

end Conformance.Syntax
