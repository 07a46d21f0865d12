import Conformance.Syntax.Expression

/-!
# Statements and declarations

A statement is chosen by its first token. Keywords that are also names begin a
declaration only where the words behind them say so, on the same line.
-/

namespace Conformance.Syntax

open Rule

/-- A block of statements. -/
def blockRule (self : Self) : Rule :=
  construct .statementBlock (all [openBrace, many (self .statement), closeBrace])

/-- A condition in parentheses. -/
def condition (self : Self) : Rule := parenthesized self

/-- One variable with its type and value. -/
def variableDeclarator (self : Self) (mode : Mode) : Rule :=
  let name : Rule := fun cursor =>
    if nextIs cursor "\x7b" then objectPattern self cursor
    else if nextIs cursor "[" then arrayPattern self cursor
    else bindingName cursor
  construct .variableDeclarator (all [playing .name name, optional (mark "!"),
    optional (annotatedType self), optional (initializer self mode)])

/-- A declaration of variables, up to its end. -/
def variableList (self : Self) (mode : Mode) (ending : Rule) : Rule := fun cursor =>
  let kind : Construct := if nextIsWord cursor "var" then .variableDeclaration else .lexicalDeclaration
  construct kind (all [wordOf ["var", "let", "const"], commaSeparated1 (variableDeclarator self mode),
    ending]) cursor

/-- Variables declared by a statement. -/
def variableStatement (self : Self) : Rule := variableList self Mode.statement semicolon

/-- Whether the keyword `let` declares something here. -/
def letDeclares (cursor : Cursor) : Bool :=
  let next := nextToken (behindName cursor)
  next.startsWith "[" || next.startsWith "\x7b" ||
    (nextName next != "" && nextName next != "in" && nextName next != "instanceof")

/-- A function with a body, or its signature alone. -/
def functionDeclaration (self : Self) : Rule := fun cursor =>
  let head := all [optional (word "async"), word "function"]
  match head cursor with
  | none => none
  | some (_, next) =>
    let generator := nextIs next "*"
    (match (all [head, optional (mark "*"), playing .name bindingName, callSignature self]) cursor with
    | none => none
    | some (nodes, next) =>
      if nextIs next "\x7b" then
        match playing .body (self .block) next with
        | none => none
        | some (body, stop) =>
          let kind : Construct :=
            if generator then .generatorFunctionDeclaration else .functionDeclaration
          some (wrap kind (nodes ++ body) stop, stop)
      else
        match semicolonAfter false next with
        | none => none
        | some (parts, stop) => some (wrap .functionSignature (nodes ++ parts) stop, stop))

/-- A class, perhaps abstract. -/
def classDeclaration (self : Self) : Rule :=
  let abstracted := construct .abstractClassDeclaration (all [many (decorator self), word "abstract",
    word "class", className, classRest self])
  let plain := construct .classDeclaration (all [many (decorator self), word "class", className,
    classRest self])
  firstOf [plain, abstracted]

/-- An interface. -/
def interfaceDeclaration (self : Self) : Rule :=
  construct .interfaceDeclaration (all [word "interface", playing .name typeName,
    optional (typeParameters self),
    optional (construct .extendsTypeClause (all [word "extends",
      commaSeparated1 (self .typeExpression)])),
    playing .body (construct .interfaceBody (typeMembers self))])

/-- A type that is given a name. -/
def typeAlias (self : Self) : Rule :=
  construct .typeAliasDeclaration (all [word "type", playing .name typeName,
    optional (typeParameters self), mark "=", playing .value (self .typeExpression),
    semicolonAfter false])

/-- An enumeration. -/
def enumDeclaration (self : Self) : Rule :=
  let member := extended (playing .name (memberName self)) fun next =>
    if nextIs next "=" then some (.enumAssignment, initializer self Mode.closed) else none
  construct .enumDeclaration (all [optional (word "const"), word "enum",
    playing .name bindingName,
    playing .body (construct .enumBody (all [openBrace, commaSeparated member, closeBrace]))])

/-- A qualified name of a namespace. The number bounds the points. -/
def namespaceMembers : Nat → List Node → Cursor → List Node × Cursor
  | 0, before, cursor => (before, cursor)
  | bound + 1, before, cursor =>
    if nextIs cursor "." then
      match (all [mark ".", playing .property (anyName .propertyIdentifier)]) cursor with
      | some (parts, next) =>
        namespaceMembers bound (wrap .nestedIdentifier (before ++ parts) next) next
      | none => (before, cursor)
    else (before, cursor)

/-- The name of a namespace or module. -/
def namespaceName : Rule := fun cursor =>
  match (firstOf [stringLiteral, plainName .identifier]) cursor with
  | none => none
  | some (first, next) => some (namespaceMembers (next.left + 1) first next)

/-- A namespace, which stands as an expression, or a module. -/
def namespaceDeclaration (self : Self) : Rule := fun cursor =>
  let rest := all [playing .name namespaceName, optional (playing .body (self .block))]
  if nextIsWord cursor "namespace" then
    construct .internalModule (andThen (word "namespace") rest) cursor
  else construct .ambientModule (andThen (word "module") rest) cursor

/-- What may stand behind `declare` and `export`. -/
def declarationRule (self : Self) : Rule := fun cursor =>
  let name := nextName cursor
  let behind := behindName cursor
  if name == "function" ∨ (name == "async" ∧ nextIsWord behind "function") then
    functionDeclaration self cursor
  else if name == "class" ∨ nextIs cursor "@" ∨ (name == "abstract" ∧ nextIsWord behind "class") then
    classDeclaration self cursor
  else if name == "const" ∧ nextIsWord behind "enum" then enumDeclaration self cursor
  else if name == "enum" then enumDeclaration self cursor
  else if name == "var" ∨ name == "let" ∨ name == "const" then variableStatement self cursor
  else if name == "interface" then interfaceDeclaration self cursor
  else if name == "type" then typeAlias self cursor
  else if name == "namespace" ∨ name == "module" then namespaceDeclaration self cursor
  else if name == "import" then
    construct .importAlias (all [word "import", bindingName, mark "=", namespaceName, semicolon]) cursor
  else if name == "declare" then
    let inner := nextName behind
    if inner == "global" then
      construct .ambientDeclaration (all [word "declare", word "global", self .block]) cursor
    else construct .ambientDeclaration (all [word "declare", self .statement]) cursor
  else none

/-- The name under which a module offers something. -/
def offeredName : Rule :=
  firstOf [stringLiteral, when (nextIsWord · "default") (anyName .identifier),
    nameOrContextual .identifier]

/-- A name in an import or export list with its other name. A word of kind may precede
it. -/
def listedName (kind : Construct) : Rule :=
  let named := all [playing .name offeredName, optional (all [word "as", playing .alias offeredName])]
  let marked : Rule := fun cursor =>
    let behind := behindName cursor
    let next := nextName behind
    if next = "" then none
    else if next == "as" ∧ nextName (behindName behind) != "as" ∧
        nextName (behindName behind) != "" then none
    else wordOf ["type", "typeof"] cursor
  construct kind (all [optional marked, named])

/-- Where something is imported or exported from. -/
def fromClause : Rule := all [word "from", playing .source stringLiteral]

/-- Attributes of an imported module. -/
def importAttribute (self : Self) : Rule :=
  construct .importAttribute (all [wordOf ["with", "assert"], objectLiteral self])

/-- The names that an import introduces. -/
def importClause : Rule :=
  let whole := construct .namespaceImport (all [mark "*", word "as", bindingName])
  let named := construct .namedImports
    (all [openBrace, commaSeparated (listedName .importSpecifier), closeBrace])
  construct .importClause (firstOf [whole, named,
    all [nameOrContextual .identifier, optional (all [mark ",", firstOf [whole, named]])]])

/-- An import. -/
def importStatement (self : Self) : Rule := fun cursor =>
  let kindWord : Rule := fun cursor =>
    let behind := behindName cursor
    if nextIs behind "\x7b" ∨ nextIs behind "*" ∨
        (nextName behind != "" ∧ (nextName behind != "from" ∨ nextIsWord (behindName behind) "from")) then
      wordOf ["type", "typeof"] cursor
    else none
  let required := construct .importRequireClause (all [bindingName, mark "=", word "require", mark "(",
    playing .source stringLiteral, mark ")"])
  let content := firstOf [playing .source stringLiteral, required, all [importClause, fromClause]]
  match construct .importStatement (all [word "import", optional kindWord, content,
      optional (importAttribute self), semicolonAfter false]) cursor with
  | some result => some result
  | none =>
    construct .importAlias (all [word "import", bindingName, mark "=", namespaceName, semicolon]) cursor

/-- The names that a module offers. -/
def exportClause : Rule :=
  construct .exportClause
    (all [openBrace, commaSeparated (listedName .exportSpecifier), closeBrace])

/-- What follows `export default`: a declaration, or a value. -/
def defaultExport (self : Self) : Rule := fun cursor =>
  let name := nextName cursor
  let behind := behindName cursor
  let declares := nextIs cursor "@" || name == "class" || name == "function" || name == "interface" ||
    (name == "async" && nextIsWord behind "function") || (name == "abstract" && nextIsWord behind "class") ||
    name == "enum"
  let value := all [playing .value (self (.expression Mode.statement)), semicolon]
  if declares then firstOf [playing .declaration (declarationRule self), value] cursor
  else value cursor

/-- An export. -/
def exportStatement (self : Self) : Rule := fun cursor =>
  let decorators := many (decorator self)
  match decorators cursor with
  | none => none
  | some (_, start) =>
    let behind := behindName start
    let head := all [decorators, word "export"]
    let name := nextName behind
    let offered := all [exportClause, optional fromClause, optional (importAttribute self),
      semicolonAfter false]
    let rest : Rule :=
      if nextIs behind "*" then
        all [firstOf [construct .namespaceExport (all [mark "*", word "as", offeredName]), mark "*"],
          fromClause, optional (importAttribute self), semicolonAfter false]
      else if nextIs behind "\x7b" then offered
      else if nextIs behind "=" then all [mark "=", self (.expression Mode.statement), semicolon]
      else if name == "default" then all [word "default", defaultExport self]
      else if name == "as" then
        all [word "as", word "namespace", bindingName, semicolonAfter false]
      else if name == "type" ∧ (nextIs (behindName behind) "\x7b") then all [word "type", offered]
      else if name == "type" ∧ (nextIs (behindName behind) "*") then
        all [word "type", firstOf [construct .namespaceExport (all [mark "*", word "as", offeredName]),
          mark "*"], fromClause, semicolonAfter false]
      else playing .declaration (declarationRule self)
    construct .exportStatement (all [head, rest]) cursor

/-- A statement that is an expression. -/
def expressionStatement (self : Self) : Rule :=
  construct .expressionStatement (all [self (.sequence Mode.statement), semicolon])

/-- A choice between statements. -/
def ifStatement (self : Self) : Rule :=
  construct .ifStatement (all [word "if", condition self, self .statement,
    optional (construct .elseClause (all [word "else", self .statement]))])

/-- The head of a loop over the items of something. -/
def iterationHead (self : Self) : Rule :=
  let binding : Rule := fun cursor =>
    if nextIs cursor "\x7b" then objectPattern self cursor
    else if nextIs cursor "[" then arrayPattern self cursor
    else bindingName cursor
  let declared := firstOf [
    all [word "var", binding, optional (initializer self ⟨false, true, false⟩)],
    all [wordOf ["let", "const"], binding]]
  let assigned : Rule := fun cursor =>
    if nextIs cursor "\x7b" ∨ nextIs cursor "[" then self .pattern cursor
    else self (.operand Mode.closed) cursor
  all [mark "(", firstOf [declared, assigned], wordOf ["in", "of"], self (.sequence Mode.closed), mark ")"]

/-- A loop over the items of something. -/
def forInStatement (self : Self) : Rule :=
  construct .forInStatement (all [word "for", optional (word "await"), iterationHead self,
    playing .body (self .statement)])

/-- A loop with a counter. -/
def forStatement (self : Self) : Rule :=
  let header : Mode := ⟨false, true, false⟩
  let empty := construct .emptyStatement (mark ";")
  let start : Rule := fun cursor =>
    let name := nextName cursor
    if name == "var" ∨ name == "let" ∨ name == "const" then variableList self header (mark ";") cursor
    else firstOf [empty, all [self (.sequence header), mark ";"]] cursor
  construct .forStatement (all [word "for", mark "(", start,
    firstOf [empty, all [self (.sequence Mode.closed), mark ";"]], optional (self (.sequence Mode.closed)),
    mark ")", playing .body (self .statement)])

/-- A loop with its condition first. -/
def whileStatement (self : Self) : Rule :=
  construct .whileStatement (all [word "while", condition self, playing .body (self .statement)])

/-- A loop with its condition last. -/
def doStatement (self : Self) : Rule :=
  construct .doStatement (all [word "do", playing .body (self .statement), word "while", condition self,
    optional semicolon])

/-- A choice by value. -/
def switchStatement (self : Self) : Rule :=
  let body : Rule := fun cursor =>
    many (fun cursor =>
      if nextIsWord cursor "case" ∨ nextIsWord cursor "default" then none else self .statement cursor) cursor
  let selected := construct .switchCase (all [word "case", self (.sequence ⟨false, false, true⟩), mark ":", body])
  let otherwise := construct .switchDefault (all [word "default", mark ":", body])
  construct .switchStatement (all [word "switch", condition self,
    playing .body (construct .switchBody (all [openBrace, many (firstOf [selected, otherwise]), closeBrace]))])

/-- A guarded block with its handler and final block. -/
def tryStatement (self : Self) : Rule :=
  let caught := optional (all [mark "(", self .pattern, optional (annotatedType self), mark ")"])
  construct .tryStatement (all [word "try", self .block,
    optional (construct .catchClause (all [word "catch", caught, playing .body (self .block)])),
    optional (construct .finallyClause (all [word "finally", playing .body (self .block)]))])

/-- A statement that leaves or repeats a labelled one. -/
def jumpStatement (kind : Construct) (text : String) : Rule :=
  let label : Rule := fun cursor =>
    if semicolonOmitted false cursor then none else plainName .statementIdentifier cursor
  construct kind (all [word text, optional label, semicolonAfter false])

/-- A statement that ends a function with a value. -/
def returnStatement (self : Self) : Rule :=
  let value : Rule := fun cursor =>
    if semicolonOmitted false cursor then none else self (.sequence Mode.statement) cursor
  construct .returnStatement (all [word "return", optional value, semicolon])

/-- Whether two words stand on one line. -/
def onOneLine (cursor : Cursor) : Bool := (nextToken (behindName cursor)).row == (behindName cursor).row

/-- A statement that begins with a keyword, by the keyword. -/
def keywordStatement (self : Self) (cursor : Cursor) : Option Rule :=
  let name := nextName cursor
  let behind := behindName cursor
  if name = "" then none
  else if name == "import" then
    if nextIs behind "(" ∨ nextIs behind "." then none else some (importStatement self)
  else if name == "export" then some (exportStatement self)
  else if name == "var" ∨ (name == "let" ∧ letDeclares cursor) then some (variableStatement self)
  else if name == "const" then
    some (if nextIsWord behind "enum" then enumDeclaration self else variableStatement self)
  else if name == "function" then some (functionDeclaration self)
  else if name == "async" then
    if nextIsWord behind "function" ∧ onOneLine cursor then some (functionDeclaration self) else none
  else if name == "class" then some (classDeclaration self)
  else if name == "abstract" then
    if nextIsWord behind "class" then some (classDeclaration self) else none
  else if name == "if" then some (ifStatement self)
  else if name == "for" then some (firstOf [forInStatement self, forStatement self])
  else if name == "while" then some (whileStatement self)
  else if name == "do" then some (doStatement self)
  else if name == "switch" then some (switchStatement self)
  else if name == "try" then some (tryStatement self)
  else if name == "with" then
    some (construct .withStatement (all [word "with", condition self, playing .body (self .statement)]))
  else if name == "return" then some (returnStatement self)
  else if name == "throw" then
    some (construct .throwStatement (all [word "throw", self (.sequence Mode.statement), semicolon]))
  else if name == "break" then some (jumpStatement .breakStatement "break")
  else if name == "continue" then some (jumpStatement .continueStatement "continue")
  else if name == "debugger" then
    some (construct .debuggerStatement (all [word "debugger", semicolonAfter false]))
  else if name == "interface" then
    if nextName behind != "" then some (interfaceDeclaration self) else none
  else if name == "enum" then some (enumDeclaration self)
  else if name == "type" then
    if nextName behind != "" ∧ onOneLine cursor ∧
        (nextIs (behindName behind) "=" ∨ nextIs (behindName behind) "<") then some (typeAlias self)
    else none
  else if name == "namespace" ∨ name == "module" then
    if onOneLine cursor ∧ (nextName behind != "" ∨ nextIs behind "\"" ∨ nextIs behind "'") ∧
        nextName behind != "in" ∧ nextName behind != "as" then
      some (if name == "namespace" then
        construct .expressionStatement (all [namespaceDeclaration self, optional semicolon])
      else namespaceDeclaration self)
    else none
  else if name == "declare" then
    if nextName behind != "" ∧ onOneLine cursor ∧ nextName behind != "in" ∧ nextName behind != "as" then
      some (declarationRule self)
    else none
  else none

/-- A statement with a label. -/
def labeledStatement (self : Self) : Rule :=
  construct .labeledStatement (all [plainName .statementIdentifier, mark ":",
    playing .body (self .statement)])

/-- A statement. -/
def statementRule (self : Self) : Rule := fun cursor =>
  let start := nextToken cursor
  match start.rest with
  | [] => none
  | c :: _ =>
    if c = '\x7d' then none
    else if c = '\x7b' then self .block cursor
    else if c = ';' then construct .emptyStatement (mark ";") cursor
    else if c = '@' then firstOf [exportStatement self, classDeclaration self] cursor
    else
      match keywordStatement self cursor with
      | some rule => rule cursor
      | none =>
        let name := nextName cursor
        if name != "" ∧ !reservedWords.contains name ∧ nextIs (behindName cursor) ":" then
          labeledStatement self cursor
        else expressionStatement self cursor

end Conformance.Syntax
