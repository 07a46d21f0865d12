import Conformance.Proofs.Syntax.Gaps
import Conformance.Syntax.Reader

/-!
# What statements begin with

The node that a rule reads first, comments apart, tells by its kind what the rule has read. Only a rule
that finds a quotation mark ahead reads a quoted text first. So a statement that does not begin with a
quotation mark is no quoted text.
-/

namespace Conformance.Syntax

open Rule

/-- A construct that is neither a comment nor of some other kinds. -/
def isApart (others : List Construct) (node : Node) : Bool :=
  match node.kind with
  | .construct kind => !(Construct.comment :: others).contains kind
  | .token _ => false

/-- The first node that is no comment is a construct that is of none of some kinds. -/
def Opens (others : List Construct) (nodes : List Node) : Prop :=
  ∃ node rest, nodes.dropWhile isComment = node :: rest ∧ isApart others node = true

/-- What is read, if anything, opens with a construct that is of none of some kinds. -/
def Begins (others : List Construct) (result : Option (List Node × Cursor)) : Prop :=
  ∀ nodes stop, result = some (nodes, stop) → Opens others nodes

variable {others : List Construct} {kind : Construct} {nodes before after : List Node} {stop next : Cursor}

/-- A construct that is of none of some kinds is not of one of them. -/
theorem is_of_isApart {node : Node} (apart : isApart others node = true)
    (member : kind ∈ Construct.comment :: others) : node.is kind = false := by
  cases node with
  | mk whole role span children =>
    rw [Node.is, Node.kind, beq_eq_false_iff_ne]
    rintro rfl
    simp only [isApart, Node.kind, Bool.not_eq_true', List.contains_eq_mem, decide_eq_false_iff_not] at apart
    exact apart member

/-- A construct in front of the others is the first named child. -/
theorem namedChildren_of_isApart {node value : Node} {parts : List Node}
    (children : node.children = value :: parts) (apart : isApart others value = true) :
    ∃ rest, node.namedChildren = value :: rest := by
  rw [Node.namedChildren, children]
  refine ⟨_, List.filter_cons_of_pos ?_⟩
  cases same : value.kind with
  | construct other => rfl
  | token text =>
    rw [isApart, same] at apart
    cases apart

/-- The comments in front of what is put into a construct stay in front of it. -/
theorem dropWhile_wrap (apart : kind ≠ .comment) (nodes : List Node) (stop : Cursor) :
    ∃ span, (wrap kind nodes stop).dropWhile isComment =
      [.mk (.construct kind) none span (nodes.dropWhile isComment)] := by
  have lead : (nodes.takeWhile isComment).dropWhile isComment = [] :=
    List.dropWhile_eq_nil_iff.mpr fun node member => List.mem_takeWhile_imp member
  unfold wrap
  dsimp only
  rw [List.dropWhile_append, lead, List.isEmpty_nil, if_pos rfl, List.dropWhile_cons_of_neg]
  · exact ⟨_, rfl⟩
  · simpa [isComment, Node.is, Node.kind] using apart

theorem opens_wrap (apart : kind ∉ Construct.comment :: others) (nodes : List Node) (stop : Cursor) :
    Opens others (wrap kind nodes stop) := by
  obtain ⟨span, same⟩ := dropWhile_wrap (List.ne_of_not_mem_cons apart) nodes stop
  refine ⟨_, [], same, ?_⟩
  simpa [isApart, Node.kind] using apart

theorem Opens.append (opens : Opens others before) (after : List Node) : Opens others (before ++ after) := by
  obtain ⟨node, rest, same, apart⟩ := opens
  refine ⟨node, rest ++ after, ?_, apart⟩
  rw [List.dropWhile_append, same]
  rfl

/-- Comments in front do not matter. -/
theorem Opens.behind (comments : ∀ node ∈ before, isComment node = true) (opens : Opens others after) :
    Opens others (before ++ after) := by
  obtain ⟨node, rest, same, apart⟩ := opens
  refine ⟨node, rest, ?_, apart⟩
  rw [List.dropWhile_append, List.dropWhile_eq_nil_iff.mpr comments]
  exact same

/-! Ways of putting rules together. -/

theorem begins_none : Begins others none := by
  intro nodes stop impossible
  cases impossible

theorem begins_some (opens : Opens others nodes) : Begins others (some (nodes, stop)) := by
  rintro _ _ ⟨⟩
  exact opens

theorem begins_ite {condition : Prop} [Decidable condition] {first second : Option (List Node × Cursor)}
    (holds : Begins others first) (fails : Begins others second) :
    Begins others (if condition then first else second) := by
  split
  · exact holds
  · exact fails

/-- What has been read, or something else where nothing has. -/
theorem begins_otherwise {first second : Option (List Node × Cursor)} :
    Begins others first → Begins others second → Begins others (match first with
      | some result => some result
      | none => second) := by
  intro reads fails
  split
  · exact reads
  · exact fails

/-- What is read in a construct with more behind it, or alone. -/
theorem begins_taken {result : Option (List Node × Cursor)} (apart : kind ∉ Construct.comment :: others) :
    Opens others before → Begins others (match result with
      | some (parts, stop) => some (wrap kind (before ++ parts) stop, stop)
      | none => some (before, next)) := by
  intro opens
  split
  · exact begins_some (opens_wrap apart _ _)
  · exact begins_some opens

theorem begins_construct (apart : kind ∉ Construct.comment :: others) {rule : Rule} {cursor : Cursor} :
    Begins others (construct kind rule cursor) := by
  unfold construct
  split
  · exact begins_some (opens_wrap apart _ _)
  · exact begins_none

theorem begins_leafOf (apart : kind ∉ Construct.comment :: others) {recognise : Cursor → Option Cursor}
    {cursor : Cursor} : Begins others (leafOf (.construct kind) recognise cursor) := by
  unfold leafOf
  dsimp only
  split
  · refine begins_some (Opens.behind isComment_of_mem_gapFrom ?_)
    refine ⟨_, [], List.dropWhile_cons_of_neg ?_, ?_⟩
    · simpa [isComment, Node.is, leaf, Node.kind] using (List.ne_of_not_mem_cons apart)
    · simpa [isApart, leaf, Node.kind] using apart
  · exact begins_none

/-! Values. -/

/-- Constructs that are read as values, at the first token of a value. -/
def Goal.isValue : Goal → Bool
  | .expression _ => true
  | .sequence _ => true
  | .unary _ => true
  | .element => true
  | _ => false

/-- Values that are no quoted texts. -/
abbrev BeginsValue (result : Option (List Node × Cursor)) : Prop := Begins [.stringLiteral] result

theorem begins_templateOf {hole : Construct} {inside : Rule} {cursor : Cursor}
    (apart : kind ∉ Construct.comment :: others) : Begins others (templateOf kind hole inside cursor) := by
  unfold templateOf
  dsimp only
  split
  · split
    · exact begins_some (Opens.behind isComment_of_mem_gapFrom (opens_wrap apart _ _))
    · exact begins_none
  · exact begins_none

theorem begins_regexLiteral {cursor : Cursor} : BeginsValue (regexLiteral cursor) := by
  unfold regexLiteral
  dsimp only
  split
  · split
    · exact begins_none
    · exact begins_some (Opens.behind isComment_of_mem_gapFrom (opens_wrap (by decide) _ _))
  · exact begins_none

theorem begins_identifier {cursor : Cursor} : BeginsValue (identifier cursor) := by
  unfold identifier nameOrContextual
  dsimp only
  exact begins_ite (begins_leafOf (by decide)) (begins_ite begins_none
    (begins_ite (begins_construct (by decide)) (begins_leafOf (by decide))))

theorem begins_functionExpression {self : Self} {cursor : Cursor} :
    BeginsValue (functionExpression self cursor) := by
  unfold functionExpression
  dsimp only
  split
  · exact begins_none
  · split
    · exact begins_construct (by decide)
    · exact begins_construct (by decide)

theorem begins_elementRule {self : Self} {cursor : Cursor} : BeginsValue (elementRule self cursor) := by
  unfold elementRule
  dsimp only
  split
  · exact begins_none
  · split
    · split
      · exact begins_some (opens_wrap (by decide) _ _)
      · exact begins_none
    · split
      · exact begins_none
      · split
        · exact begins_none
        · split
          · exact begins_none
          · exact begins_some (opens_wrap (by decide) _ _)

/-- What stands behind an operand takes it into no comment and into no quoted text. -/
def Extends (result : Option (Construct × List Node × Cursor)) : Prop :=
  ∀ kind parts next, result = some (kind, parts, next) → kind ∉ [Construct.comment, .stringLiteral]

theorem extends_none : Extends none := by
  intro kind parts next impossible
  cases impossible

theorem extends_map (apart : kind ∉ [Construct.comment, .stringLiteral])
    {result : Option (List Node × Cursor)} {change : List Node → List Node} :
    Extends (result.map fun (nodes, next) => (kind, change nodes, next)) := by
  intro other parts next found
  obtain ⟨_, _, same⟩ := Option.map_eq_some_iff.mp found
  cases same
  exact apart

theorem extends_found (apart : kind ∉ [Construct.comment, .stringLiteral])
    {result : Option (List Node × Cursor)} : Extends (result.map fun (nodes, next) => (kind, nodes, next)) :=
  show Extends (result.map fun (nodes, next) => (kind, id nodes, next)) from extends_map apart

theorem extends_tailRule {self : Self} {calls : Bool} {cursor : Cursor} :
    Extends (tailRule self calls cursor) := by
  unfold tailRule
  dsimp only
  split
  · split
    · exact extends_none
    · exact extends_found (by decide)
  · split
    · exact extends_none
    · split
      · split
        · exact extends_found (by decide)
        · exact extends_none
      · split
        · exact extends_found (by decide)
        · split
          · split
            · exact extends_found (by decide)
            · exact extends_none
          · exact extends_found (by decide)
  · exact extends_found (by decide)
  · split
    · exact extends_found (by decide)
    · exact extends_none
  · exact extends_found (by decide)
  · split
    · exact extends_none
    · exact extends_found (by decide)
  · split
    · exact extends_none
    · split
      · exact extends_none
      · split
        · exact extends_map (by decide)
        · split
          · exact extends_map (by decide)
          · split
            · rintro _ _ _ ⟨⟩
              decide
            · exact extends_none
  · exact extends_none

/-- What stands behind a value keeps it a value. -/
theorem opens_tails {self : Self} {calls : Bool} {mode : Mode} {bound : Nat} {cursor : Cursor}
    (opens : Opens [.stringLiteral] before) :
    Opens [.stringLiteral] (tails self calls mode bound before cursor).1 := by
  induction bound generalizing before cursor with
  | zero => exact opens
  | succ bound inductionHypothesis =>
    unfold tails
    split
    · exact opens
    · split
      · exact opens
      · next kind parts next found =>
        exact inductionHypothesis (opens_wrap (extends_tailRule kind parts next found) _ _)

theorem opens_binaryTail {self : Self} {mode : Mode} {least bound : Nat} {cursor : Cursor}
    (opens : Opens [.stringLiteral] before) :
    Opens [.stringLiteral] (binaryTail self mode least bound before cursor).1 := by
  induction bound generalizing before cursor with
  | zero => exact opens
  | succ bound inductionHypothesis =>
    have goesOn {kind : Construct} (apart : kind ∉ [Construct.comment, .stringLiteral])
        (result : Option (List Node × Cursor)) : Opens [.stringLiteral] (match result with
          | some (parts, next) =>
            binaryTail self mode least bound (wrap kind (before ++ parts) next) next
          | none => (before, cursor)).1 := by
      split
      · exact inductionHypothesis (opens_wrap apart _ _)
      · exact opens
    unfold binaryTail
    dsimp only
    split
    · exact opens
    · split
      · split
        · exact opens
        · refine goesOn ?_ _
          split <;> decide
      · split
        · split
          · exact opens
          · exact goesOn (by decide) _
        · split
          · exact opens
          · split
            · exact opens
            · split
              · exact opens
              · exact goesOn (by decide) _

section Values

variable {self : Self} {dialect : Dialect} {mode : Mode} {cursor : Cursor}
  (plain : ∀ c ∈ (nextToken cursor).peek?, c ≠ '"' ∧ c ≠ '\'')
  (nested : ∀ goal : Goal, goal.isValue = true → BeginsValue (self goal cursor))
include plain nested

theorem begins_primaryRule : BeginsValue (primaryRule self dialect mode cursor) := by
  unfold primaryRule
  dsimp only
  split
  · exact begins_none
  · next c rest ahead =>
    obtain ⟨notDouble, notSingle⟩ := plain c (congrArg List.head? ahead)
    refine begins_ite (begins_construct (by decide)) (begins_ite (begins_construct (by decide))
      (begins_ite (begins_construct (by decide)) ?_))
    rw [if_neg (not_or.mpr ⟨notDouble, notSingle⟩)]
    refine begins_ite (begins_templateOf (by decide)) (begins_ite begins_regexLiteral
      (begins_ite (begins_leafOf (by decide)) (begins_ite (begins_construct (by decide))
      (begins_ite (begins_ite (nested .element rfl) begins_none)
      (begins_ite (begins_leafOf (by decide)) ?_)))))
    refine begins_ite (begins_leafOf (by decide)) (begins_ite (begins_leafOf (by decide))
      (begins_ite (begins_leafOf (by decide)) (begins_ite (begins_leafOf (by decide))
      (begins_ite (begins_leafOf (by decide)) (begins_ite begins_functionExpression
      (begins_ite (begins_construct (by decide)) ?_))))))
    have property : BeginsValue (metaProperty cursor) :=
      begins_otherwise (begins_construct (by decide))
        (begins_otherwise (begins_construct (by decide)) begins_none)
    exact begins_ite (begins_otherwise property (begins_otherwise (begins_construct (by decide)) begins_none))
      (begins_ite (begins_otherwise property (begins_otherwise (begins_leafOf (by decide)) begins_none))
      (begins_ite begins_functionExpression begins_identifier))

theorem begins_operandRule {calls : Bool} : BeginsValue (operandRule self dialect calls mode cursor) := by
  have primary : BeginsValue (primaryRule self dialect mode cursor) := begins_primaryRule plain nested
  unfold operandRule
  dsimp only
  split
  · exact begins_none
  · next nodes next found =>
    have opens : Opens [.stringLiteral] (tails self calls mode (next.left + 1) nodes next).1 :=
      opens_tails (primary nodes next found)
    split
    · split
      · exact begins_some (opens_wrap (by decide) _ _)
      · exact begins_some opens
    · exact begins_some opens

theorem begins_unaryRule : BeginsValue (unaryRule self dialect mode cursor) := by
  unfold unaryRule
  dsimp only
  split
  · exact begins_none
  · exact begins_ite (begins_construct (by decide)) (begins_ite (begins_construct (by decide))
      (begins_ite (begins_construct (by decide)) (begins_ite (begins_construct (by decide))
      (begins_ite (begins_construct (by decide)) (begins_ite (begins_construct (by decide))
      (begins_operandRule plain nested))))))

omit plain in
theorem begins_assignmentRule : BeginsValue (assignmentRule self mode cursor) := by
  have operands : BeginsValue (binaryRule self mode 0 cursor) := by
    unfold binaryRule
    split
    · exact begins_none
    · next nodes next found =>
      have opens : Opens [.stringLiteral] (binaryTail self mode 0 (next.left + 1) nodes next).1 :=
        opens_binaryTail (nested (.unary mode) rfl nodes next found)
      exact begins_some opens
  have pattern : BeginsValue (patternAssignment self mode cursor) := begins_construct (by decide)
  unfold assignmentRule
  dsimp only
  split
  · exact begins_ite pattern begins_none
  · next nodes next found =>
    have opens := operands nodes next found
    split
    · exact begins_some opens
    · split
      · exact begins_some opens
      · exact begins_ite (begins_taken (by decide) opens)
          (begins_ite (begins_ite pattern (begins_taken (by decide) opens))
          (begins_ite (begins_taken (by decide) opens) (begins_some opens)))

omit plain in
theorem begins_expressionRule : BeginsValue (expressionRule self dialect mode cursor) := by
  have value : BeginsValue (assignmentRule self mode cursor) := begins_assignmentRule nested
  have named : BeginsValue (arrowWithName self mode cursor) := begins_construct (by decide)
  have either : BeginsValue (firstOf [arrowWithSignature self mode, assignmentRule self mode] cursor) :=
    begins_otherwise (begins_construct (by decide)) (begins_otherwise value begins_none)
  unfold expressionRule
  dsimp only
  refine begins_ite ?_ (begins_ite (begins_ite either value) (begins_ite value
    (begins_ite (begins_ite ?_ (begins_ite either (begins_ite named (begins_ite named value))))
    (begins_ite named (begins_ite (begins_construct (by decide)) value)))))
  -- What stands behind the parentheses tells whether they begin an arrow function.
  all_goals
    split
    · exact either
    · exact begins_ite value either
    · exact either
    · exact value

omit plain in
theorem begins_sequenceRule : BeginsValue (sequenceRule self mode cursor) := by
  unfold sequenceRule extended
  split
  · exact begins_none
  · next nodes next found =>
    split
    · exact begins_some (nested (.expression mode) rfl nodes next found)
    · split
      · exact begins_none
      · next chosen _ _ _ _ =>
        dsimp only at chosen
        split at chosen
        · cases chosen
          exact begins_some (opens_wrap (by decide) _ _)
        · cases chosen

omit nested in
/-- Where no quotation mark is ahead no value is a quoted text, however deep the nesting may be. -/
theorem begins_readNested (dialect : Dialect) (depth : Nat) (goal : Goal) (value : goal.isValue = true) :
    BeginsValue (readNested dialect depth goal cursor) := by
  induction depth generalizing goal with
  | zero => exact begins_none
  | succ depth inductionHypothesis =>
    cases goal with
    | expression mode => exact begins_expressionRule inductionHypothesis
    | sequence mode => exact begins_sequenceRule inductionHypothesis
    | unary mode => exact begins_unaryRule plain inductionHypothesis
    | element => exact begins_elementRule
    | _ => cases value

end Values

/-! Statements. -/

/-- Statements that are no expressions. -/
abbrev BeginsOther (result : Option (List Node × Cursor)) : Prop :=
  Begins [.hashBangLine, .expressionStatement] result

/-- A statement that is no quoted text: no expression, or one that begins with another value. -/
def IsUnquoted (node : Node) : Prop :=
  isApart [.hashBangLine, .expressionStatement] node = true ∨
    node.is .expressionStatement = true ∧ ∃ value parts, node.children = value :: parts ∧
      isApart [.stringLiteral] value = true

/-- What is read, if anything, begins with a statement that is no quoted text. -/
def BeginsUnquoted (result : Option (List Node × Cursor)) : Prop :=
  ∀ nodes stop, result = some (nodes, stop) →
    ∃ node rest, nodes.dropWhile isComment = node :: rest ∧ IsUnquoted node

theorem beginsUnquoted_none : BeginsUnquoted none := by
  intro nodes stop impossible
  cases impossible

theorem beginsUnquoted_ite {condition : Prop} [Decidable condition]
    {first second : Option (List Node × Cursor)} (holds : BeginsUnquoted first)
    (fails : BeginsUnquoted second) : BeginsUnquoted (if condition then first else second) := by
  split
  · exact holds
  · exact fails

/-- A statement that is no expression is no quoted text. -/
theorem Begins.unquoted {result : Option (List Node × Cursor)} (begins : BeginsOther result) :
    BeginsUnquoted result := by
  intro nodes stop read
  obtain ⟨node, rest, same, apart⟩ := begins nodes stop read
  exact ⟨node, rest, same, .inl apart⟩

/-- An expression whose parts begin with another value is no quoted text. -/
theorem beginsUnquoted_expression {rule : Rule} {cursor : Cursor} (begins : BeginsValue (rule cursor)) :
    BeginsUnquoted (construct .expressionStatement rule cursor) := by
  unfold construct
  split
  · next nodes stop read =>
    rintro _ _ ⟨⟩
    obtain ⟨value, parts, same, other⟩ := begins nodes stop read
    have apart : Construct.expressionStatement ≠ .comment := by decide
    obtain ⟨span, whole⟩ := dropWhile_wrap apart nodes stop
    exact ⟨_, [], whole, .inr ⟨rfl, value, parts, same, other⟩⟩
  · exact beginsUnquoted_none

/-- What stands behind a value in a statement does not matter. -/
theorem begins_andThen {first second : Rule} {cursor : Cursor} (begins : Begins others (first cursor)) :
    Begins others (andThen first second cursor) := by
  unfold andThen
  split
  · exact begins_none
  · next before next read =>
    split
    · exact begins_none
    · exact begins_some ((begins before next read).append _)

section Statements

variable {self : Self} {cursor : Cursor}

theorem begins_functionDeclaration : BeginsOther (functionDeclaration self cursor) := by
  unfold functionDeclaration
  dsimp only
  split
  · exact begins_none
  · split
    · exact begins_none
    · split
      · split
        · exact begins_none
        · refine begins_some (opens_wrap ?_ _ _)
          split <;> decide
      · split
        · exact begins_none
        · exact begins_some (opens_wrap (by decide) _ _)

theorem begins_classDeclaration : BeginsOther (classDeclaration self cursor) :=
  begins_otherwise (begins_construct (by decide))
    (begins_otherwise (begins_construct (by decide)) begins_none)

theorem begins_variableStatement : BeginsOther (variableStatement self cursor) := by
  unfold variableStatement variableList
  refine begins_construct ?_
  split <;> decide

theorem begins_namespaceDeclaration : BeginsOther (namespaceDeclaration self cursor) :=
  begins_ite (begins_construct (by decide)) (begins_construct (by decide))

theorem begins_exportStatement : BeginsOther (exportStatement self cursor) := by
  unfold exportStatement
  dsimp only
  split
  · exact begins_none
  · exact begins_construct (by decide)

theorem begins_importStatement : BeginsOther (importStatement self cursor) :=
  begins_otherwise (begins_construct (by decide)) (begins_construct (by decide))

theorem begins_declarationRule : BeginsOther (declarationRule self cursor) :=
  begins_ite begins_functionDeclaration (begins_ite begins_classDeclaration
    (begins_ite (begins_construct (by decide)) (begins_ite (begins_construct (by decide))
    (begins_ite begins_variableStatement (begins_ite (begins_construct (by decide))
    (begins_ite (begins_construct (by decide)) (begins_ite begins_namespaceDeclaration
    (begins_ite (begins_construct (by decide)) (begins_ite
      (begins_ite (begins_construct (by decide)) (begins_construct (by decide))) begins_none)))))))))

/-- The rule that a keyword chooses reads no quoted text first. -/
def ChoosesUnquoted (cursor : Cursor) (choice : Option Rule) : Prop :=
  ∀ rule, choice = some rule → BeginsUnquoted (rule cursor)

theorem choosesUnquoted_none : ChoosesUnquoted cursor none := by
  intro rule impossible
  cases impossible

theorem choosesUnquoted_some {rule : Rule} (begins : BeginsUnquoted (rule cursor)) :
    ChoosesUnquoted cursor (some rule) := by
  rintro _ ⟨⟩
  exact begins

theorem choosesUnquoted_construct {kind : Construct} {rule : Rule}
    (apart : kind ∉ [Construct.comment, .hashBangLine, .expressionStatement]) :
    ChoosesUnquoted cursor (some (construct kind rule)) :=
  choosesUnquoted_some (begins_construct apart).unquoted

theorem choosesUnquoted_ite {condition : Prop} [Decidable condition] {first second : Option Rule}
    (holds : ChoosesUnquoted cursor first) (fails : ChoosesUnquoted cursor second) :
    ChoosesUnquoted cursor (if condition then first else second) := by
  split
  · exact holds
  · exact fails

theorem choosesUnquoted_keywordStatement (self : Self) (cursor : Cursor) :
    ChoosesUnquoted cursor (keywordStatement self cursor) := by
  have bindings : ChoosesUnquoted cursor (some (variableStatement self)) :=
    choosesUnquoted_some begins_variableStatement.unquoted
  have function : ChoosesUnquoted cursor (some (functionDeclaration self)) :=
    choosesUnquoted_some begins_functionDeclaration.unquoted
  have classes : ChoosesUnquoted cursor (some (classDeclaration self)) :=
    choosesUnquoted_some begins_classDeclaration.unquoted
  have loops : BeginsOther (firstOf [forInStatement self, forStatement self] cursor) :=
    begins_otherwise (begins_construct (by decide))
      (begins_otherwise (begins_construct (by decide)) begins_none)
  have namespaces : BeginsUnquoted (construct .expressionStatement
      (all [namespaceDeclaration self, optional semicolon]) cursor) :=
    beginsUnquoted_expression (begins_andThen
      (begins_ite (begins_construct (by decide)) (begins_construct (by decide))))
  unfold keywordStatement
  dsimp only
  refine choosesUnquoted_ite choosesUnquoted_none (choosesUnquoted_ite
    (choosesUnquoted_ite choosesUnquoted_none (choosesUnquoted_some begins_importStatement.unquoted))
    (choosesUnquoted_ite (choosesUnquoted_some begins_exportStatement.unquoted)
    (choosesUnquoted_ite bindings (choosesUnquoted_ite ?enumeration (choosesUnquoted_ite function
    (choosesUnquoted_ite (choosesUnquoted_ite function choosesUnquoted_none) (choosesUnquoted_ite classes
    (choosesUnquoted_ite (choosesUnquoted_ite classes choosesUnquoted_none) ?_))))))))
  case enumeration =>
    split
    · exact choosesUnquoted_construct (by decide)
    · exact bindings
  refine choosesUnquoted_ite (choosesUnquoted_construct (by decide))
    (choosesUnquoted_ite (choosesUnquoted_some loops.unquoted)
    (choosesUnquoted_ite (choosesUnquoted_construct (by decide))
    (choosesUnquoted_ite (choosesUnquoted_construct (by decide))
    (choosesUnquoted_ite (choosesUnquoted_construct (by decide))
    (choosesUnquoted_ite (choosesUnquoted_construct (by decide))
    (choosesUnquoted_ite (choosesUnquoted_construct (by decide))
    (choosesUnquoted_ite (choosesUnquoted_construct (by decide))
    (choosesUnquoted_ite (choosesUnquoted_construct (by decide))
    (choosesUnquoted_ite (choosesUnquoted_construct (by decide))
    (choosesUnquoted_ite (choosesUnquoted_construct (by decide))
    (choosesUnquoted_ite (choosesUnquoted_construct (by decide)) ?_)))))))))))
  refine choosesUnquoted_ite
    (choosesUnquoted_ite (choosesUnquoted_construct (by decide)) choosesUnquoted_none)
    (choosesUnquoted_ite (choosesUnquoted_construct (by decide))
    (choosesUnquoted_ite (choosesUnquoted_ite (choosesUnquoted_construct (by decide)) choosesUnquoted_none)
    (choosesUnquoted_ite (choosesUnquoted_ite ?namespaces choosesUnquoted_none)
    (choosesUnquoted_ite (choosesUnquoted_ite (choosesUnquoted_some begins_declarationRule.unquoted)
      choosesUnquoted_none) choosesUnquoted_none))))
  split
  · exact choosesUnquoted_some namespaces
  · exact choosesUnquoted_some begins_namespaceDeclaration.unquoted

end Statements

/-- Where no quotation mark is ahead the statement is no quoted text. -/
theorem beginsUnquoted_statement (dialect : Dialect) (depth : Nat) {cursor : Cursor}
    (plain : ∀ c ∈ (nextToken cursor).peek?, c ≠ '"' ∧ c ≠ '\'') :
    BeginsUnquoted (readNested dialect depth .statement cursor) := by
  cases depth with
  | zero => exact beginsUnquoted_none
  | succ depth =>
    have value : BeginsValue (all [readNested dialect depth (.sequence Mode.statement), semicolon] cursor) :=
      begins_andThen (begins_readNested plain dialect depth _ rfl)
    have block : BeginsUnquoted (readNested dialect depth .block cursor) := by
      cases depth with
      | zero => exact beginsUnquoted_none
      | succ depth => exact (begins_construct (by decide)).unquoted
    have decorated : BeginsOther (firstOf [exportStatement (readNested dialect depth),
        classDeclaration (readNested dialect depth)] cursor) :=
      begins_otherwise begins_exportStatement (begins_otherwise begins_classDeclaration begins_none)
    change BeginsUnquoted (statementRule (readNested dialect depth) cursor)
    unfold statementRule
    dsimp only
    split
    · exact beginsUnquoted_none
    · refine beginsUnquoted_ite beginsUnquoted_none (beginsUnquoted_ite block
        (beginsUnquoted_ite (begins_construct (by decide)).unquoted
        (beginsUnquoted_ite decorated.unquoted ?_)))
      split
      · next rule chosen => exact choosesUnquoted_keywordStatement _ cursor rule chosen
      · exact beginsUnquoted_ite (begins_construct (by decide)).unquoted (beginsUnquoted_expression value)

end Conformance.Syntax
