import Conformance.Proofs.Syntax.Expression
import Conformance.Syntax.Reader

/-!
# Statements lay out their nodes

The reader of nested constructs lays out what it reads at every depth, by induction on the depth,
so the nodes of a tree that is read from a source lie in that source.
-/

namespace Conformance.Syntax

open Cursor

/-- The words behind the points of a namespace lie behind its first word. -/
theorem laid_namespaceMembers {start cursor : Cursor} {before : List Node} (bound : Nat)
    (laid : Laid start before cursor) :
    Laid start (namespaceMembers bound before cursor).1
      (namespaceMembers bound before cursor).2 := by
  induction bound generalizing before cursor with
  | zero => exact laid
  | succ bound inductionHypothesis =>
    have member : LaysOut (Rule.all [Rule.mark ".",
        Rule.playing .property (Syntax.anyName .propertyIdentifier)]) :=
      .all ⟨.mark, .playing .anyName⟩
    unfold namespaceMembers
    split
    · exact laid_takenIn laid (member cursor) fun _ _ taken => inductionHypothesis (taken.wrap _)
    · exact laid

/-- A choice of a rule that lays out what it reads, or of none. -/
def Chooses (choice : Option Rule) : Prop := ∀ rule ∈ choice, LaysOut rule

/-- No rule is chosen. -/
theorem chooses_none : Chooses none := by
  rintro rule ⟨⟩

/-- A rule is chosen. -/
theorem chooses_some {rule : Rule} (laysOut : LaysOut rule) : Chooses (some rule) := by
  rintro _ ⟨⟩
  exact laysOut

/-- One of two choices. -/
theorem chooses_ite {condition : Prop} [Decidable condition] {first second : Option Rule}
    (holds : Chooses first) (fails : Chooses second) :
    Chooses (if condition then first else second) := by
  split
  · exact holds
  · exact fails

namespace LaysOut

/-- The name of a namespace or module. -/
theorem namespaceName : LaysOut Syntax.namespaceName :=
  readingOn (firstOf ⟨stringLiteral, plainName⟩) fun _ _ next laid =>
    yields_some (laid_namespaceMembers (next.left + 1) laid)

/-- The name under which a module offers something. -/
theorem offeredName : LaysOut Syntax.offeredName :=
  firstOf ⟨stringLiteral, when _ anyName, nameOrContextual⟩

/-- A name in an import or export list. -/
theorem listedName {kind : Construct} : LaysOut (Syntax.listedName kind) :=
  construct (all ⟨optional (ite never (ite never (wordOf _))),
    all ⟨playing offeredName, optional (all ⟨word, playing offeredName⟩)⟩⟩)

/-- Where something is imported or exported from. -/
theorem fromClause : LaysOut Syntax.fromClause := all ⟨word, playing stringLiteral⟩

/-- The names that an import introduces. -/
theorem importClause : LaysOut Syntax.importClause := by
  have whole : LaysOut (Rule.construct .namespaceImport (Rule.all [Rule.mark "*", Rule.word "as",
      Syntax.bindingName])) :=
    construct (all ⟨mark, word, bindingName⟩)
  have named : LaysOut (Rule.construct .namedImports (Rule.all [Rule.openBrace,
      Rule.commaSeparated (Syntax.listedName .importSpecifier), Rule.closeBrace])) :=
    construct (all ⟨openBrace, commaSeparated listedName, closeBrace⟩)
  exact construct (firstOf ⟨whole, named,
    all ⟨nameOrContextual, optional (all ⟨mark, firstOf ⟨whole, named⟩⟩)⟩⟩)

/-- The names that a module offers. -/
theorem exportClause : LaysOut Syntax.exportClause :=
  construct (all ⟨openBrace, commaSeparated listedName, closeBrace⟩)

/-- A statement that leaves or repeats a labelled one. -/
theorem jumpStatement {kind : Construct} {text : String} :
    LaysOut (Syntax.jumpStatement kind text) :=
  construct (all ⟨word, optional (ite never plainName), semicolonAfter⟩)

/-- What a module is imported as. -/
theorem importAlias : LaysOut (Rule.construct .importAlias (Rule.all [Rule.word "import",
    Syntax.bindingName, Rule.mark "=", Syntax.namespaceName, Syntax.semicolon])) :=
  construct (all ⟨word, bindingName, mark, namespaceName, semicolon⟩)

variable {self : Self} (nested : ∀ goal, LaysOut (self goal))
include nested

/-- A block of statements. -/
theorem blockRule : LaysOut (Syntax.blockRule self) :=
  construct (all ⟨openBrace, many (nested _), closeBrace⟩)

/-- A condition in parentheses. -/
theorem condition : LaysOut (Syntax.condition self) := parenthesized nested

/-- One variable. -/
theorem variableDeclarator {mode : Mode} : LaysOut (Syntax.variableDeclarator self mode) :=
  construct (all ⟨playing (ite (objectPattern nested) (ite (arrayPattern nested) bindingName)),
    optional mark, optional (annotatedType nested), optional (initializer nested)⟩)

/-- A declaration of variables. -/
theorem variableList {mode : Mode} {ending : Rule} (ends : LaysOut ending) :
    LaysOut (Syntax.variableList self mode ending) :=
  have parts : LaysOut (Rule.all [Rule.wordOf ["var", "let", "const"],
      Rule.commaSeparated1 (Syntax.variableDeclarator self mode), ending]) :=
    all ⟨wordOf _, commaSeparated1 (variableDeclarator nested), ends⟩
  fun start => construct parts start

/-- Variables declared by a statement. -/
theorem variableStatement : LaysOut (Syntax.variableStatement self) := variableList nested semicolon

/-- A function with a body, or its signature alone. -/
theorem functionDeclaration : LaysOut (Syntax.functionDeclaration self) := by
  have head : LaysOut (Rule.all [Rule.optional (Rule.word "async"), Rule.word "function"]) :=
    all ⟨optional word, word⟩
  have signature : LaysOut (Rule.all [Rule.all [Rule.optional (Rule.word "async"),
      Rule.word "function"], Rule.optional (Rule.mark "*"),
      Rule.playing .name Syntax.bindingName, Syntax.callSignature self]) :=
    all ⟨head, optional mark, playing bindingName, callSignature nested⟩
  have body : LaysOut (Rule.playing .body (self .block)) := playing (nested _)
  refine readingOn head fun start _ _ _ => ?_
  dsimp only
  split
  · exact yields_none start
  · next nodes next read =>
    have laid := signature start nodes next read
    split
    · split
      · exact yields_none start
      · next more stop further =>
        exact yields_some ((laid.append (body next more stop further)).wrap _)
    · split
      · exact yields_none start
      · next parts stop further =>
        exact yields_some ((laid.append (semicolonAfter next parts stop further)).wrap _)

/-- A class, perhaps abstract. -/
theorem classDeclaration : LaysOut (Syntax.classDeclaration self) :=
  firstOf ⟨construct (all ⟨many (decorator nested), word, className, classRest nested⟩),
    construct (all ⟨many (decorator nested), word, word, className, classRest nested⟩)⟩

/-- An interface. -/
theorem interfaceDeclaration : LaysOut (Syntax.interfaceDeclaration self) :=
  construct (all ⟨word, playing typeName, optional (typeParameters nested),
    optional (construct (all ⟨word, commaSeparated1 (nested _)⟩)),
    playing (construct (typeMembers nested))⟩)

/-- A type that is given a name. -/
theorem typeAlias : LaysOut (Syntax.typeAlias self) :=
  construct (all ⟨word, playing typeName, optional (typeParameters nested), mark,
    playing (nested _), semicolonAfter⟩)

/-- An enumeration. -/
theorem enumDeclaration : LaysOut (Syntax.enumDeclaration self) :=
  construct (all ⟨optional word, word, playing bindingName, playing (construct (all ⟨openBrace,
    commaSeparated (extendedIf (playing (memberName nested)) (initializer nested)),
    closeBrace⟩))⟩)

/-- A namespace or a module. -/
theorem namespaceDeclaration : LaysOut (Syntax.namespaceDeclaration self) :=
  have rest : LaysOut (Rule.all [Rule.playing .name Syntax.namespaceName,
      Rule.optional (Rule.playing .body (self .block))]) :=
    all ⟨playing namespaceName, optional (playing (nested _))⟩
  ite (construct (andThen word rest)) (construct (andThen word rest))

/-- What may stand behind the words that declare and export. -/
theorem declarationRule : LaysOut (Syntax.declarationRule self) :=
  ite (functionDeclaration nested) (ite (classDeclaration nested) (ite (enumDeclaration nested)
    (ite (enumDeclaration nested) (ite (variableStatement nested)
    (ite (interfaceDeclaration nested) (ite (typeAlias nested) (ite (namespaceDeclaration nested)
    (ite importAlias (ite (ite (construct (all ⟨word, word, nested _⟩))
      (construct (all ⟨word, nested _⟩))) never)))))))))

/-- Attributes of an imported module. -/
theorem importAttribute : LaysOut (Syntax.importAttribute self) :=
  construct (all ⟨wordOf _, objectLiteral nested⟩)

/-- An import. -/
theorem importStatement : LaysOut (Syntax.importStatement self) :=
  fun start => yields_otherwise (yields (construct (all ⟨word, optional (ite (wordOf _) never),
    firstOf ⟨playing stringLiteral,
      construct (all ⟨bindingName, mark, word, mark, playing stringLiteral, mark⟩),
      all ⟨importClause, fromClause⟩⟩,
    optional (importAttribute nested), semicolonAfter⟩))) (importAlias start)

/-- What follows the word of a default export. -/
theorem defaultExport : LaysOut (Syntax.defaultExport self) :=
  have value : LaysOut (Rule.all [Rule.playing .value (self (.expression Mode.statement)),
      Syntax.semicolon]) :=
    all ⟨playing (nested _), semicolon⟩
  ite (firstOf ⟨playing (declarationRule nested), value⟩) value

/-- An export. -/
theorem exportStatement : LaysOut (Syntax.exportStatement self) := by
  have decorators := many (decorator nested)
  have head : LaysOut (Rule.all [Rule.many (Syntax.decorator self), Rule.word "export"]) :=
    all ⟨decorators, word⟩
  have offered : LaysOut (Rule.all [Syntax.exportClause, Rule.optional Syntax.fromClause,
      Rule.optional (Syntax.importAttribute self), Syntax.semicolonAfter false]) :=
    all ⟨exportClause, optional fromClause, optional (importAttribute nested), semicolonAfter⟩
  have everything : LaysOut (Rule.firstOf [Rule.construct .namespaceExport
      (Rule.all [Rule.mark "*", Rule.word "as", Syntax.offeredName]), Rule.mark "*"]) :=
    firstOf ⟨construct (all ⟨mark, word, offeredName⟩), mark⟩
  refine readingOn decorators fun start _ _ _ => ?_
  dsimp only
  refine construct (andThen head ?_) start
  exact chosen _ (all ⟨everything, fromClause, optional (importAttribute nested), semicolonAfter⟩)
    (chosen _ offered (chosen _ (all ⟨mark, nested _, semicolon⟩)
    (chosen _ (all ⟨word, defaultExport nested⟩)
    (chosen _ (all ⟨word, word, bindingName, semicolonAfter⟩)
    (chosen _ (all ⟨word, offered⟩)
    (chosen _ (all ⟨word, everything, fromClause, semicolonAfter⟩)
      (playing (declarationRule nested))))))))

/-- A statement that is an expression. -/
theorem expressionStatement : LaysOut (Syntax.expressionStatement self) :=
  construct (all ⟨nested _, semicolon⟩)

/-- A choice between statements. -/
theorem ifStatement : LaysOut (Syntax.ifStatement self) :=
  construct (all ⟨word, condition nested, nested _,
    optional (construct (all ⟨word, nested _⟩))⟩)

/-- The head of a loop over the items of something. -/
theorem iterationHead : LaysOut (Syntax.iterationHead self) := by
  have binding : LaysOut fun cursor =>
      if nextIs cursor "\x7b" then Syntax.objectPattern self cursor
      else if nextIs cursor "[" then Syntax.arrayPattern self cursor
      else Syntax.bindingName cursor :=
    ite (objectPattern nested) (ite (arrayPattern nested) bindingName)
  exact all ⟨mark, firstOf ⟨firstOf ⟨all ⟨word, binding, optional (initializer nested)⟩,
    all ⟨wordOf _, binding⟩⟩, ite (nested _) (nested _)⟩, wordOf _, nested _, mark⟩

/-- A loop over the items of something. -/
theorem forInStatement : LaysOut (Syntax.forInStatement self) :=
  construct (all ⟨word, optional word, iterationHead nested, playing (nested _)⟩)

/-- A loop with a counter. -/
theorem forStatement : LaysOut (Syntax.forStatement self) := by
  have empty : LaysOut (Rule.construct .emptyStatement (Rule.mark ";")) := construct mark
  exact construct (all ⟨word, mark, ite (variableList nested mark)
    (firstOf ⟨empty, all ⟨nested _, mark⟩⟩), firstOf ⟨empty, all ⟨nested _, mark⟩⟩,
    optional (nested _), mark, playing (nested _)⟩)

/-- A loop with its condition first. -/
theorem whileStatement : LaysOut (Syntax.whileStatement self) :=
  construct (all ⟨word, condition nested, playing (nested _)⟩)

/-- A loop with its condition last. -/
theorem doStatement : LaysOut (Syntax.doStatement self) :=
  construct (all ⟨word, playing (nested _), word, condition nested, optional semicolon⟩)

/-- A choice by value. -/
theorem switchStatement : LaysOut (Syntax.switchStatement self) := by
  have body : LaysOut fun cursor => Rule.many (fun cursor =>
      if nextIsWord cursor "case" ∨ nextIsWord cursor "default" then none
      else self .statement cursor) cursor :=
    many (ite never (nested _))
  exact construct (all ⟨word, condition nested, playing (construct (all ⟨openBrace,
    many (firstOf ⟨construct (all ⟨word, nested _, mark, body⟩), construct (all ⟨word, mark, body⟩)⟩),
    closeBrace⟩))⟩)

/-- A guarded block. -/
theorem tryStatement : LaysOut (Syntax.tryStatement self) :=
  construct (all ⟨word, nested _, optional (construct (all ⟨word, optional (all ⟨mark, nested _,
    optional (annotatedType nested), mark⟩), playing (nested _)⟩)),
    optional (construct (all ⟨word, playing (nested _)⟩))⟩)

/-- A statement that ends a function with a value. -/
theorem returnStatement : LaysOut (Syntax.returnStatement self) :=
  construct (all ⟨word, optional (ite never (nested _)), semicolon⟩)

/-- A statement with a label. -/
theorem labeledStatement : LaysOut (Syntax.labeledStatement self) :=
  construct (all ⟨plainName, mark, playing (nested _)⟩)

/-- A statement that begins with a keyword. -/
theorem chooses_keywordStatement (cursor : Cursor) : Chooses (keywordStatement self cursor) := by
  unfold keywordStatement
  dsimp only
  refine chooses_ite chooses_none (chooses_ite (chooses_ite chooses_none
    (chooses_some (importStatement nested))) (chooses_ite (chooses_some (exportStatement nested))
    (chooses_ite (chooses_some (variableStatement nested))
    (chooses_ite (chooses_some (chosen _ (enumDeclaration nested) (variableStatement nested)))
    (chooses_ite (chooses_some (functionDeclaration nested))
    (chooses_ite (chooses_ite (chooses_some (functionDeclaration nested)) chooses_none)
    (chooses_ite (chooses_some (classDeclaration nested))
    (chooses_ite (chooses_ite (chooses_some (classDeclaration nested)) chooses_none)
    ?_))))))))
  refine chooses_ite (chooses_some (ifStatement nested))
    (chooses_ite (chooses_some (firstOf ⟨forInStatement nested, forStatement nested⟩))
    (chooses_ite (chooses_some (whileStatement nested))
    (chooses_ite (chooses_some (doStatement nested))
    (chooses_ite (chooses_some (switchStatement nested))
    (chooses_ite (chooses_some (tryStatement nested))
    (chooses_ite (chooses_some (construct (all ⟨word, condition nested, playing (nested _)⟩)))
    (chooses_ite (chooses_some (returnStatement nested))
    (chooses_ite (chooses_some (construct (all ⟨word, nested _, semicolon⟩)))
    (chooses_ite (chooses_some jumpStatement) (chooses_ite (chooses_some jumpStatement)
    (chooses_ite (chooses_some (construct (all ⟨word, semicolonAfter⟩))) ?_)))))))))))
  exact chooses_ite (chooses_ite (chooses_some (interfaceDeclaration nested)) chooses_none)
    (chooses_ite (chooses_some (enumDeclaration nested))
    (chooses_ite (chooses_ite (chooses_some (typeAlias nested)) chooses_none)
    (chooses_ite (chooses_ite (chooses_some (chosen _
      (construct (all ⟨namespaceDeclaration nested, optional semicolon⟩))
      (namespaceDeclaration nested))) chooses_none)
    (chooses_ite (chooses_ite (chooses_some (declarationRule nested)) chooses_none)
      chooses_none))))

/-- A statement. -/
theorem statementRule : LaysOut (Syntax.statementRule self) := by
  intro start
  unfold Syntax.statementRule
  dsimp only
  split
  · exact yields_none start
  · refine yields_ite (yields_none start) (yields_ite (nested _ start)
      (yields_ite (construct mark start)
      (yields_ite (yields (firstOf ⟨exportStatement nested, classDeclaration nested⟩)) ?_)))
    split
    · next rule found => exact chooses_keywordStatement nested start rule found start
    · exact yields_ite (labeledStatement nested start) (expressionStatement nested start)

/-- The rule for every construct that nests. -/
theorem ruleFor {dialect : Dialect} (goal : Goal) :
    LaysOut (Syntax.ruleFor dialect self goal) := by
  cases goal with
  | statement => exact statementRule nested
  | block => exact blockRule nested
  | expression mode => exact expressionRule nested
  | sequence mode => exact sequenceRule nested
  | binary mode least => exact binaryRule nested
  | unary mode => exact unaryRule nested
  | operand mode => exact operandRule nested
  | constructorOperand mode => exact operandRule nested
  | typeExpression => exact typeRule nested
  | comparedType => exact comparedTypeRule nested
  | primaryType => exact primaryTypeRule nested
  | pattern => exact patternRule nested
  | element => exact elementRule nested

omit nested in
/-- The reader of nested constructs lays out what it reads, at every depth. -/
theorem readNested (dialect : Dialect) (depth : Nat) (goal : Goal) :
    LaysOut (Syntax.readNested dialect depth goal) := by
  induction depth generalizing goal with
  | zero => exact never
  | succ depth inductionHypothesis => exact ruleFor inductionHypothesis goal

end LaysOut

/-- The statements of a source lie behind the place where they begin. -/
theorem laid_statements (dialect : Dialect) (source : List Char) (start : Cursor) :
    Laid start (statements dialect source start).1 (statements dialect source start).2 := by
  unfold statements
  split
  · next result read =>
    exact LaysOut.many (.readNested dialect (depthBound source) .statement) start _ _ read
  · exact .none (.refl start)

/-- The first line of a source that names its interpreter. -/
theorem LaysOut.hashBang : LaysOut Syntax.hashBang := by
  intro start
  exact yields_ite (yields_some (.leaf _ (reaches_skipWhile _ start))) (yields_none start)

/-- The root behind the first line of a source, if the source ends behind the statements. -/
theorem laid_program {dialect : Dialect} {source : List Char} {start next : Cursor}
    {first : List Node} {tree : Node} (laid : Laid start first next)
    (read : (if (gap (statements dialect source next).2).2.rest.isEmpty then
        Except.ok (Node.mk (.construct .program) none
          ⟨start.byte, (gap (statements dialect source next).2).2.byte, start.row⟩
          (first ++ (statements dialect source next).1 ++ (gap (statements dialect source next).2).1))
      else Except.error (ReadError.unexpected (gap (statements dialect source next).2).2.byte)) =
      .ok tree) :
    ∃ stop, Laid start [tree] stop := by
  split at read
  · cases read
    exact ⟨_, .node (.refl start) ((laid.append (laid_statements dialect source next)).append
      (laid_gap _)) (.none (.refl _))⟩
  · cases read

/-- The nodes of a tree lie in the source that it is read from. -/
theorem laid_readTree {dialect : Dialect} {source : List Char} {tree : Node}
    (read : readTree dialect source = .ok tree) :
    ∃ stop, Laid (Cursor.ofText source) [tree] stop := by
  have begins := reaches_skipWhile isGap (Cursor.ofText source)
  unfold readTree at read
  dsimp only at read
  generalize (Cursor.ofText source).skipWhile isGap = start at begins read
  obtain ⟨stop, laid⟩ : ∃ stop, Laid start [tree] stop := by
    cases found : hashBang start with
    | none =>
      rw [found] at read
      exact laid_program (.none (.refl start)) read
    | some result =>
      rw [found] at read
      exact laid_program (LaysOut.hashBang start _ _ found) read
  exact ⟨stop, laid.behind begins⟩

end Conformance.Syntax
