import Conformance.Syntax.Class
import Conformance.Syntax.Element

/-!
# Expressions

From the weakest to the strongest binding: arrow functions and assignments, choices,
binary operators by precedence, unary operators, and operands with members, calls and
indexes behind them. Where an expression may end a statement, an omitted semicolon ends
it before the next operator is looked for.
-/

namespace Conformance.Syntax

open Rule

/-- Marks made of operator characters, longer ones before their beginnings. -/
def operatorMarks : List String := [
  ">>>=", "===", "!==", ">>>", "<<=", ">>=", "**=", "&&=", "||=", "??=", "...",
  "=>", "==", "!=", "<=", ">=", "&&", "||", "??", "?.", "++", "--", "+=", "-=", "*=", "/=", "%=",
  "^=", "&=", "|=", "<<", ">>", "**", "<", ">", "=", "+", "-", "*", "/", "%", "&", "|", "^", "!",
  "~", "?", ":"]

/-- The longest operator mark that begins here. A question mark and a point before a
digit are no common mark. -/
def operatorAt? (cursor : Cursor) : Option String :=
  match operatorMarks.find? cursor.startsWith with
  | some "?." => if (cursor.rest.drop 2).head?.any Char.isDigit then some "?" else some "?."
  | found => found

/-- Marks that assign. -/
def assignmentMarks : List String := [
  "=", "+=", "-=", "*=", "/=", "%=", "^=", "&=", "|=", "<<=", ">>=", ">>>=", "**=", "&&=", "||=",
  "??="]

/-- Binary operators with their precedence. -/
def binaryOperators : List (String × Nat) := [
  ("??", 1), ("||", 2), ("&&", 3), ("|", 4), ("^", 5), ("&", 6), ("==", 7), ("!=", 7), ("===", 7),
  ("!==", 7), ("<", 8), (">", 8), ("<=", 8), (">=", 8), ("<<", 9), (">>", 9), (">>>", 9), ("+", 10),
  ("-", 10), ("*", 11), ("/", 11), ("%", 11), ("**", 12)]

/-- The precedence of operators that are keywords. -/
def keywordPrecedence : Nat := 8

/-- Whether the expression ends here because a semicolon was left out. -/
def endsHere (mode : Mode) (cursor : Cursor) : Bool := mode.ending && semicolonOmitted true cursor

/-- Arguments of a call. -/
def arguments (self : Self) : Rule :=
  let spread := construct .spreadElement (all [mark "...", self (.expression Mode.closed)])
  let argument : Rule := fun cursor =>
    if nextIs cursor "..." then spread cursor else self (.expression Mode.closed) cursor
  construct .arguments (all [mark "(", sparse argument, mark ")"])

/-- A list of values in brackets. -/
def arrayLiteral (self : Self) : Rule :=
  let item : Rule := fun cursor =>
    if nextIs cursor "..." then
      construct .spreadElement (all [mark "...", self (.expression Mode.closed)]) cursor
    else self (.expression Mode.closed) cursor
  construct .arrayLiteral (all [mark "[", sparse item, mark "]"])

/-- A member of an object literal. -/
def objectMember (self : Self) : Rule := fun cursor =>
  if nextIs cursor "..." then
    construct .spreadElement (all [mark "...", self (.expression Mode.closed)]) cursor
  else
    match methodDefinition self cursor with
    | some result => some result
    | none =>
      match memberName self cursor with
      | none => none
      | some (_, next) =>
        if nextIs next ":" then
          construct .pair (all [memberName self, mark ":",
            playing .value (self (.expression Mode.closed))]) cursor
        else nameOrContextual .shorthandPropertyIdentifier cursor

/-- An object literal. -/
def objectLiteral (self : Self) : Rule :=
  construct .objectLiteral (all [openBrace, sparse (objectMember self), closeBrace])

/-- An expression in parentheses. -/
def parenthesized (self : Self) : Rule :=
  construct .parenthesizedExpression (all [mark "(", self (.sequence Mode.closed),
    optional (annotatedType self), mark ")"])

/-- A function in an expression; a star makes it a generator. -/
def functionExpression (self : Self) : Rule := fun cursor =>
  let head := all [optional (word "async"), word "function"]
  match head cursor with
  | none => none
  | some (_, next) =>
    let kind : Construct := if nextIs next "*" then .generatorFunction else .functionExpression
    construct kind (all [head, optional (mark "*"), optional (playing .name bindingName),
      callSignature self, playing .body (self .block)]) cursor

/-- What an arrow function computes: a block or an expression. -/
def arrowBody (self : Self) (mode : Mode) : Rule := fun cursor =>
  if nextIs cursor "\x7b" then playing .body (self .block) cursor
  else playing .body (self (.expression mode)) cursor

/-- An arrow function with a parameter list. -/
def arrowWithSignature (self : Self) (mode : Mode) : Rule :=
  construct .arrowFunction (all [optional (word "async"), callSignature self, mark "=>",
    arrowBody self mode])

/-- An arrow function with one bare parameter. -/
def arrowWithName (self : Self) (mode : Mode) : Rule :=
  construct .arrowFunction (all [
    optional (when (fun cursor => !nextIs (behindName cursor) "=>") (word "async")), identifier,
    mark "=>", arrowBody self mode])

/-- An instance of a class: the class without calls, then arguments if any. -/
def newExpression (self : Self) (mode : Mode) : Rule :=
  construct .newExpression (all [word "new", self (.constructorOperand mode),
    optional (when (nextIs · "<") (typeArguments self)),
    optional (fun cursor => if endsHere mode cursor then none else arguments self cursor)])

/-- Properties of the running code: the called class, or the module. -/
def metaProperty : Rule :=
  firstOf [construct .metaProperty (all [word "new", mark ".", word "target"]),
    construct .metaProperty (all [word "import", mark ".", word "meta"])]

/-- An operand without anything behind it. -/
def primaryRule (self : Self) (dialect : Dialect) (mode : Mode) : Rule := fun cursor =>
  let start := nextToken cursor
  match start.rest with
  | [] => none
  | c :: _ =>
    if c = '(' then parenthesized self cursor
    else if c = '[' then arrayLiteral self cursor
    else if c = '\x7b' then objectLiteral self cursor
    else if c = '"' ∨ c = '\'' then stringLiteral cursor
    else if c = '\x60' then templateString self cursor
    else if c = '/' then regexLiteral cursor
    else if c = '#' then privateName cursor
    else if c = '@' then classExpression self cursor
    else if c = '<' then (if dialect = .markup then self .element cursor else none)
    else if c.isDigit ∨ c = '.' then numberLiteral cursor
    else
      let name := nextName cursor
      if name == "this" then wordConstruct .thisExpression "this" cursor
      else if name == "super" then wordConstruct .superExpression "super" cursor
      else if name == "true" then wordConstruct .trueLiteral "true" cursor
      else if name == "false" then wordConstruct .falseLiteral "false" cursor
      else if name == "null" then wordConstruct .nullLiteral "null" cursor
      else if name == "function" then functionExpression self cursor
      else if name == "class" then classExpression self cursor
      else if name == "new" then firstOf [metaProperty, newExpression self mode] cursor
      else if name == "import" then
        firstOf [metaProperty, wordConstruct .importKeyword "import"] cursor
      else if name == "async" ∧ nextIsWord (behindName cursor) "function" ∧
          (nextToken (behindName cursor)).row = start.row then functionExpression self cursor
      else identifier cursor

/-- Whether type arguments that are no call's may end before this place. -/
def endsInstantiation (cursor : Cursor) : Bool :=
  let next := nextToken cursor
  match next.rest with
  | [] => true
  | c :: _ => ")],;:.".toList.contains c || c == '\x7d'

/-- One thing behind an operand: a member, an index, arguments, a template, or the mark
of a value that is not null. The result names the construct that takes in the operand. -/
def tailRule (self : Self) (calls : Bool) (cursor : Cursor) :
    Option (Construct × List Node × Cursor) :=
  let property := playing .property (firstOf [privateName, anyName .propertyIdentifier])
  let index := all [mark "[", self (.sequence Mode.closed), mark "]"]
  let chain := construct .optionalChain (mark "?.")
  let callParts := playing .value (arguments self)
  let start := nextToken cursor
  let found (kind : Construct) (rule : Rule) : Option (Construct × List Node × Cursor) :=
    (rule cursor).map fun (nodes, next) => (kind, nodes, next)
  match start.rest with
  | '.' :: _ => if start.startsWith "..." then none else found .memberExpression (all [mark ".", property])
  | '?' :: '.' :: rest =>
    if rest.head?.any Char.isDigit then none
    else
      let behind := start.advance 2
      if nextIs behind "(" then
        if calls then found .callExpression (all [chain, callParts]) else none
      else if nextIs behind "[" then found .subscriptExpression (all [chain, index])
      else if nextIs behind "<" then
        if calls then found .callExpression (all [chain, typeArguments self, callParts]) else none
      else found .memberExpression (all [chain, property])
  | '[' :: _ => found .subscriptExpression index
  | '(' :: _ => if calls then found .callExpression callParts else none
  | '\x60' :: _ => found .callExpression (playing .value (templateString self))
  | '!' :: rest => if rest.head? = some '=' then none else found .nonNullExpression (mark "!")
  | '<' :: rest =>
    if !calls || rest.head? == some '<' || rest.head? == some '=' then none
    else
      match typeArguments self cursor with
      | none => none
      | some (nodes, next) =>
        if nextIs next "(" then
          (callParts next).map fun (more, stop) => (.callExpression, nodes ++ more, stop)
        else if nextIs next "\x60" then
          (templateString self next).map fun (more, stop) => (.callExpression, nodes ++ more, stop)
        else if endsInstantiation next then some (.instantiationExpression, nodes, next)
        else none
  | _ => none

/-- The role that an operand plays in the construct that takes it in. -/
def operandRole (kind : Construct) : Role :=
  if kind = .callExpression then .callee else .object

/-- Everything behind an operand. The number bounds the parts. -/
def tails (self : Self) (calls : Bool) (mode : Mode) : Nat → List Node → Cursor → List Node × Cursor
  | 0, before, cursor => (before, cursor)
  | bound + 1, before, cursor =>
    if endsHere mode cursor then (before, cursor)
    else
      match tailRule self calls cursor with
      | none => (before, cursor)
      | some (kind, parts, next) =>
        let role := operandRole kind
        let operand := before.map fun node => if isComment node then node else node.withRole role
        tails self calls mode bound (wrap kind (operand ++ parts) next) next

/-- An operand with everything behind it, an increment or decrement included. -/
def operandRule (self : Self) (dialect : Dialect) (calls : Bool) (mode : Mode) : Rule := fun cursor =>
  match primaryRule self dialect mode cursor with
  | none => none
  | some (nodes, next) =>
    let (nodes, next) := tails self calls mode (next.left + 1) nodes next
    if calls ∧ (nextIs next "++" ∨ nextIs next "--") ∧ (nextToken next).row = next.row then
      match (firstOf [mark "++", mark "--"]) next with
      | some (parts, stop) => some (wrap .updateExpression (nodes ++ parts) stop, stop)
      | none => some (nodes, next)
    else some (nodes, next)

/-- An operand with unary operators before it. -/
def unaryRule (self : Self) (dialect : Dialect) (mode : Mode) : Rule := fun cursor =>
  let start := nextToken cursor
  let operand := self (.unary mode)
  match start.rest with
  | [] => none
  | c :: _ =>
    if start.startsWith "++" then construct .updateExpression (all [mark "++", operand]) cursor
    else if start.startsWith "--" then construct .updateExpression (all [mark "--", operand]) cursor
    else if c = '!' ∨ c = '~' ∨ c = '-' ∨ c = '+' then
      construct .unaryExpression (all [mark (String.ofList [c]), operand]) cursor
    else if c = '<' ∧ dialect = .plain then
      construct .typeAssertion (all [typeArguments self, operand]) cursor
    else
      let name := nextName cursor
      if name == "typeof" ∨ name == "void" ∨ name == "delete" then
        construct .unaryExpression (all [word name, operand]) cursor
      else if name == "await" then construct .awaitExpression (all [word "await", operand]) cursor
      else operandRule self dialect true mode cursor

/-- The type behind `as` or `satisfies`. -/
def claimedType (self : Self) : Rule := fun cursor =>
  if nextIsWord cursor "const" then word "const" cursor else self .typeExpression cursor

/-- Binary operators behind an expression, as long as they bind at least as strongly as
asked for. The number bounds the operators. -/
def binaryTail (self : Self) (mode : Mode) (least : Nat) :
    Nat → List Node → Cursor → List Node × Cursor
  | 0, before, cursor => (before, cursor)
  | bound + 1, before, cursor =>
    if endsHere mode cursor then (before, cursor)
    else
      let start := nextToken cursor
      let name := nextName cursor
      let extendWith (kind : Construct) (rule : Rule) : List Node × Cursor :=
        match rule cursor with
        | some (parts, next) => binaryTail self mode least bound (wrap kind (before ++ parts) next) next
        | none => (before, cursor)
      if name == "as" ∨ name == "satisfies" then
        if keywordPrecedence < least then (before, cursor)
        else
          extendWith (if name == "as" then .asExpression else .satisfiesExpression)
            (all [word name, claimedType self])
      else if name == "instanceof" ∨ (name == "in" ∧ !mode.header) then
        if keywordPrecedence < least then (before, cursor)
        else extendWith .binaryExpression (all [word name, self (.binary mode (keywordPrecedence + 1))])
      else
        match operatorAt? start with
        | none => (before, cursor)
        | some operator =>
          match binaryOperators.lookup operator with
          | none => (before, cursor)
          | some precedence =>
            if precedence < least then (before, cursor)
            else
              let right := if operator == "**" then precedence else precedence + 1
              extendWith .binaryExpression (all [mark operator, self (.binary mode right)])

/-- Operands joined by binary operators of at least the given precedence. -/
def binaryRule (self : Self) (mode : Mode) (least : Nat) : Rule := fun cursor =>
  match self (.unary mode) cursor with
  | none => none
  | some (nodes, next) => some (binaryTail self mode least (next.left + 1) nodes next)

/-- The two branches of a choice behind its question mark. A colon behind a parenthesis
in the first branch is taken for a return type if an arrow and another colon follow. -/
def branches (self : Self) (mode : Mode) : Rule :=
  let first (branch : Bool) : Rule :=
    all [mark "?", self (.expression ⟨false, mode.header, branch⟩), mark ":"]
  andThen (firstOf [first false, first true]) (self (.expression mode))

/-- An assignment to a pattern. -/
def patternAssignment (self : Self) (mode : Mode) : Rule :=
  construct .assignmentExpression (all [self .pattern, mark "=", self (.expression mode)])

/-- A choice, an assignment, or a plain expression. -/
def assignmentRule (self : Self) (mode : Mode) : Rule := fun cursor =>
  let pattern : Bool := nextIs cursor "\x7b" || nextIs cursor "["
  match binaryRule self mode 0 cursor with
  | none => if pattern then patternAssignment self mode cursor else none
  | some (nodes, next) =>
    if endsHere mode next then some (nodes, next)
    else
      match operatorAt? (nextToken next) with
      | none => some (nodes, next)
      | some operator =>
        let extendWith (kind : Construct) (rule : Rule) : Option (List Node × Cursor) :=
          match rule next with
          | some (parts, stop) => some (wrap kind (nodes ++ parts) stop, stop)
          | none => some (nodes, next)
        if operator == "?" then extendWith .ternaryExpression (branches self mode)
        else if operator == "=" then
          if pattern then patternAssignment self mode cursor
          else extendWith .assignmentExpression (all [mark "=", self (.expression mode)])
        else if assignmentMarks.contains operator then
          extendWith .augmentedAssignmentExpression (all [mark operator, self (.expression mode)])
        else some (nodes, next)

/-- A generator's result. -/
def yieldRule (self : Self) (mode : Mode) : Rule :=
  let argument : Rule := fun cursor =>
    if mode.ending && semicolonOmitted false cursor then none else self (.expression mode) cursor
  construct .yieldExpression (all [word "yield", optional (mark "*"), optional argument])

/-- Whether type parameters of an arrow function begin here. In the markup dialect they
must be told from an element by a comma or a bound. -/
def opensGenericArrow (dialect : Dialect) (cursor : Cursor) : Bool :=
  let inner := (nextToken cursor).advance 1
  match dialect with
  | .plain => true
  | .markup =>
    nextName inner != "" && (nextIs (behindName inner) "," || nextIsWord (behindName inner) "extends")

/-- An expression without commas. -/
def expressionRule (self : Self) (dialect : Dialect) (mode : Mode) : Rule := fun cursor =>
  let start := nextToken cursor
  let plain := assignmentRule self mode
  let withSignature := arrowWithSignature self mode
  let byParentheses (opening : Cursor) : Option (List Node × Cursor) :=
    match behindParentheses opening with
    | .arrow => firstOf [withSignature, plain] cursor
    | .colon => if mode.branch then plain cursor else firstOf [withSignature, plain] cursor
    | .unknown => firstOf [withSignature, plain] cursor
    | .other => plain cursor
  if start.startsWith "(" then byParentheses start
  else if start.startsWith "<" then
    if opensGenericArrow dialect cursor then firstOf [withSignature, plain] cursor else plain cursor
  else
    let name := nextName cursor
    if name = "" then plain cursor
    else
      let behind := behindName cursor
      if name == "async" ∧ (nextToken behind).row = behind.row then
        if nextIs behind "(" then byParentheses (nextToken behind)
        else if nextIs behind "<" then firstOf [withSignature, plain] cursor
        else if nextName behind != "" ∧ nextIs (behindName behind) "=>" then
          arrowWithName self mode cursor
        else if nextIs behind "=>" then arrowWithName self mode cursor
        else plain cursor
      else if nextIs behind "=>" ∧ !reservedWords.contains name then arrowWithName self mode cursor
      else if name == "yield" then yieldRule self mode cursor
      else plain cursor

/-- Expressions between commas. -/
def sequenceRule (self : Self) (mode : Mode) : Rule :=
  extended (self (.expression mode)) fun next =>
    if nextIs next "," then
      some (.sequenceExpression, atLeastOnce (andThen (mark ",") (self (.expression mode))))
    else none

end Conformance.Syntax
