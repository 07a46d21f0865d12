import Conformance.Syntax.Literal

/-!
# Names, annotations and signatures

What declarations, types and expressions share: names of properties, type
annotations, type parameters and arguments, parameter lists and call signatures.
-/

namespace Conformance.Syntax

open Rule

/-- The name of a property, where every keyword is a name. -/
def propertyIdentifier : Rule := fun cursor =>
  let name := nextName cursor
  if contextualWords.contains name then construct .propertyIdentifier (word name) cursor
  else anyName .propertyIdentifier cursor

/-- A private name. -/
def privateName : Rule :=
  leafOf (.construct .privatePropertyIdentifier) fun cursor =>
    match cursor.rest with
    | '#' :: rest => (nameAt? (cursor.step '#' rest)).map (·.2)
    | _ => none

/-- A name that is computed in brackets. -/
def computedName (self : Self) : Rule :=
  construct .computedPropertyName (all [mark "[", self (.expression Mode.closed), mark "]"])

/-- The name of a member: a word, a private word, a quoted text, a number or a computed
name. -/
def memberName (self : Self) : Rule :=
  firstOf [propertyIdentifier, privateName, stringLiteral, numberLiteral, computedName self]

/-- The value of a module as it is looked up by its name. -/
def importedModule : Rule :=
  construct .callExpression (all [playing .callee (wordConstruct .importKeyword "import"),
    playing .value (construct .arguments (all [mark "(", stringLiteral, mark ")"]))])

/-- A name behind a point. -/
def pointedMember : Rule :=
  all [firstOf [mark ".", construct .optionalChain (mark "?.")],
    playing .property (firstOf [privateName, anyName .propertyIdentifier])]

/-- Names behind points. Each makes everything before it the object. The number bounds
the points. -/
def membersBehind : Nat → (before : List Node) → Cursor → List Node × Cursor
  | 0, before, cursor => (before, cursor)
  | bound + 1, before, cursor =>
    match pointedMember cursor with
    | some (parts, next) => membersBehind bound (wrap .memberExpression (before ++ parts) next) next
    | none => (before, cursor)

/-- A module, or what it holds under a name. -/
def importedValue : Rule := fun cursor =>
  match importedModule cursor with
  | none => none
  | some (nodes, next) => some (membersBehind (next.left + 1) nodes next)

/-- A type behind a colon. -/
def annotatedType (self : Self) : Rule := fun cursor =>
  let behindColon := (nextToken cursor).advance 1
  let type := if nextIsWord behindColon "import" then importedValue else self .typeExpression
  construct .annotatedType (all [mark ":", type]) cursor

/-- The name that a type is given by. -/
def typeName : Rule := anyName .typeIdentifier

/-- A word that says something about a value's type. -/
def subject : Rule :=
  firstOf [wordConstruct .thisExpression "this", anyName .identifier]

/-- A statement that a value has a type. -/
def typePredicate (self : Self) : Rule :=
  construct .typePredicate (all [playing .name subject, word "is", self .typeExpression])

/-- Whether a type predicate begins here. -/
def isPredicate (cursor : Cursor) : Bool :=
  nextName cursor != "" && (behindName cursor).left < cursor.left &&
    nextIsWord (behindName cursor) "is" && (nextToken (behindName cursor)).row == (nextToken cursor).row

/-- Whether an assertion of a type begins here. -/
def isAssertion (cursor : Cursor) : Bool :=
  nextIsWord cursor "asserts" && nextName (behindName cursor) != "" &&
    nextName (behindName cursor) != "is"

/-- A statement that a call assures. -/
def assertion (self : Self) : Rule :=
  construct .assertion (all [word "asserts", firstOf [when isPredicate (typePredicate self), subject]])

/-- What a call returns, behind a colon: a type, a predicate or an assertion. -/
def annotatedReturn (self : Self) : Rule := when (nextIs · ":") fun cursor =>
  let behindColon := (nextToken cursor).advance 1
  if isAssertion behindColon then
    construct .annotatedAssertion (all [mark ":", assertion self]) cursor
  else if isPredicate behindColon then
    construct .annotatedPredicate (all [mark ":", typePredicate self]) cursor
  else annotatedType self cursor

/-- A type parameter with its bound and default. -/
def typeParameter (self : Self) : Rule :=
  construct .typeParameter (all [
    many (fun cursor =>
      if nextName (behindName cursor) = "" then none else wordOf ["const", "in", "out"] cursor),
    playing .name typeName,
    optional (construct .typeConstraint (all [word "extends", self .typeExpression])),
    optional (construct .defaultType (all [mark "=", self .typeExpression]))])

/-- Type parameters in angle brackets. -/
def typeParameters (self : Self) : Rule :=
  construct .typeParameters (all [mark "<", commaSeparated (typeParameter self), mark ">"])

/-- Type arguments in angle brackets. -/
def typeArguments (self : Self) : Rule :=
  construct .typeArguments (all [mark "<", commaSeparated (self .typeExpression), mark ">"])

/-- A decorator: a name, a member or a call. -/
def decorator (self : Self) : Rule :=
  construct .decorator (all [mark "@", self (.operand Mode.closed)])

/-- A word of accessibility, where another name follows it. -/
def accessibility : Rule := fun cursor =>
  let next := behindName cursor
  let follows := nextName next != "" || nextIs next "#" || nextIs next "[" || nextIs next "\"" ||
    nextIs next "'" || nextIs next "\x7b"
  if follows then
    construct .accessibilityModifier (wordOf ["public", "private", "protected"]) cursor
  else none

/-- A keyword that modifies the member whose name follows. -/
def modifier (text : String) : Rule := fun cursor =>
  let next := behindName cursor
  let follows := nextName next != "" || nextIs next "#" || nextIs next "[" || nextIs next "\"" ||
    nextIs next "'" || nextIs next "*" || nextIs next "\x7b"
  if follows then word text cursor else none

/-- The mark of an overriding member. -/
def overrideModifier : Rule := construct .overrideModifier (modifier "override")

/-- A value behind an equals sign. -/
def initializer (self : Self) (mode : Mode) : Rule :=
  andThen (mark "=") (playing .value (self (.expression mode)))

/-- One parameter. A question mark behind its name makes it optional. -/
def parameter (self : Self) : Rule :=
  let front := all [many (decorator self), optional accessibility, optional overrideModifier,
    optional (modifier "readonly"),
    playing .pattern (firstOf [wordConstruct .thisExpression "this", self .pattern])]
  let back := all [optional (annotatedType self), optional (initializer self Mode.closed)]
  extended front fun next =>
    if nextIs next "?" then some (.optionalParameter, all [mark "?", back])
    else some (.requiredParameter, back)

/-- A list of parameters in parentheses. -/
def formalParameters (self : Self) : Rule :=
  construct .formalParameters (all [mark "(", commaSeparated (parameter self), mark ")"])

/-- Type parameters, parameters, and what is returned. -/
def callSignature (self : Self) : Rule :=
  all [optional (typeParameters self), playing .parameters (formalParameters self),
    optional (playing .returnType (annotatedReturn self))]

/-- A pattern, with the value that it takes where none is given. -/
def patternWithDefault (self : Self) : Rule :=
  extended (self .pattern) fun next =>
    if nextIs next "=" then
      some (.assignmentPattern, all [mark "=", self (.expression Mode.closed)])
    else none

/-- A binding pattern in braces. -/
def objectPattern (self : Self) : Rule :=
  let shorthand := nameOrContextual .shorthandPropertyIdentifierPattern
  let item : Rule := fun cursor =>
    if nextIs cursor "..." then
      construct .restPattern (all [mark "...", self .pattern]) cursor
    else
      match memberName self cursor with
      | none => none
      | some (_, next) =>
        if nextIs next ":" then
          construct .pairPattern
            (all [memberName self, mark ":", playing .value (patternWithDefault self)]) cursor
        else if nextIs next "=" then
          construct .objectAssignmentPattern
            (all [shorthand, mark "=", self (.expression Mode.closed)]) cursor
        else shorthand cursor
  construct .objectPattern (all [openBrace, sparse item, closeBrace])

/-- A binding pattern in brackets. -/
def arrayPattern (self : Self) : Rule :=
  construct .arrayPattern (all [mark "[", sparse (patternWithDefault self), mark "]"])

/-- What a value can be bound or assigned to: a pattern in braces or brackets, the rest
of a list, a name or a member. -/
def patternRule (self : Self) : Rule := fun cursor =>
  if nextIs cursor "\x7b" then objectPattern self cursor
  else if nextIs cursor "[" then arrayPattern self cursor
  else if nextIs cursor "..." then construct .restPattern (all [mark "...", self .pattern]) cursor
  else
    let next := behindName cursor
    if nextIs next "." ∨ nextIs next "[" then self (.operand Mode.closed) cursor
    else identifier cursor

end Conformance.Syntax
