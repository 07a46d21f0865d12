import Conformance.Syntax.Signature
import Conformance.Syntax.TypeExpression

/-!
# Classes and methods

The members of a class body and of an object literal that have a call signature, and
the heads of classes.
-/

namespace Conformance.Syntax

open Rule

/-- The keywords before the name of a method. -/
def methodModifiers : Rule :=
  all [optional accessibility, many (firstOf [modifier "static", overrideModifier,
      modifier "readonly"]), optional (modifier "async"),
    optional (firstOf [modifier "get", modifier "set", mark "*"])]

/-- The name of a method with the keywords before it. -/
def methodHead (self : Self) : Rule :=
  all [methodModifiers, playing .name (memberName self), optional (mark "?")]

/-- Whether a call signature begins here. -/
def opensSignature (cursor : Cursor) : Bool := nextIs cursor "(" || nextIs cursor "<"

/-- A method with a body. -/
def methodDefinition (self : Self) : Rule := fun cursor =>
  match methodHead self cursor with
  | none => none
  | some (_, next) =>
    if opensSignature next then
      construct .methodDefinition
        (all [methodHead self, callSignature self, playing .body (self .block)]) cursor
    else none

/-- The keywords before the name of a field. -/
def fieldModifiers : Rule :=
  all [optional (modifier "declare"), optional accessibility, many (firstOf [modifier "static",
    overrideModifier, modifier "abstract", modifier "readonly", modifier "declare",
    modifier "accessor"])]

/-- A field, perhaps with a type and a value. -/
def fieldDefinition (self : Self) : Rule :=
  construct .publicFieldDefinition (all [many (decorator self), fieldModifiers,
    playing .name (memberName self), optional (firstOf [mark "?", mark "!"]),
    optional (annotatedType self), optional (initializer self Mode.statement)])

/-- A method without a body: an overload, or an abstract one. -/
def bodilessMethod (self : Self) : Rule := fun cursor =>
  let abstracted := all [optional accessibility, modifier "abstract", optional overrideModifier,
    optional (firstOf [modifier "get", modifier "set", mark "*"]), playing .name (memberName self),
    optional (mark "?")]
  match abstracted cursor with
  | some (_, next) =>
    if opensSignature next then
      construct .abstractMethodSignature (all [abstracted, callSignature self]) cursor
    else none
  | none =>
    match methodHead self cursor with
    | none => none
    | some (_, next) =>
      if opensSignature next then
        construct .methodSignature (all [methodHead self, callSignature self]) cursor
      else none

/-- A block that runs when the class is set up. -/
def staticBlock (self : Self) : Rule := fun cursor =>
  if nextIsWord cursor "static" ∧ nextIs (behindName cursor) "\x7b" then
    construct .classStaticBlock (all [word "static", playing .body (self .block)]) cursor
  else none

/-- The end of a member. -/
def memberEnd : Rule := fun cursor =>
  if nextIs cursor "," then mark "," cursor else semicolonAfter false cursor

/-- One member of a class body. A decorator before a method stands beside it, one before
a field inside it. -/
def classMember (self : Self) : Rule := fun cursor =>
  if nextIs cursor ";" then mark ";" cursor
  else if nextIs cursor "@" then
    match (all [many (decorator self), methodHead self]) cursor with
    | some (_, next) =>
      if opensSignature next then decorator self cursor
      else andThen (fieldDefinition self) (optional memberEnd) cursor
    | none => andThen (fieldDefinition self) (optional memberEnd) cursor
  else
    firstOf [staticBlock self,
      andThen (methodDefinition self) (optional (mark ";")),
      andThen (bodilessMethod self) (optional memberEnd),
      andThen (indexSignature self) (optional memberEnd),
      andThen (fieldDefinition self) (optional memberEnd)] cursor

/-- The body of a class. -/
def classBody (self : Self) : Rule :=
  construct .classBody (all [openBrace, many (classMember self), closeBrace])

/-- What a class extends: expressions with type arguments. -/
def extendsClause (self : Self) : Rule :=
  construct .extendsClause (all [word "extends", commaSeparated1 (all [
    playing .value (self (.operand Mode.closed)), optional (typeArguments self)])])

/-- The interfaces of a class. -/
def implementsClause (self : Self) : Rule :=
  construct .implementsClause (all [word "implements", commaSeparated1 (self .typeExpression)])

/-- Behind the name of a class: what it extends and implements. -/
def classHeritage (self : Self) : Rule :=
  construct .classHeritage (firstOf [
    all [extendsClause self, optional (implementsClause self)], implementsClause self])

/-- The name of a class, unless its head goes on without one. -/
def className : Rule := fun cursor =>
  let name := nextName cursor
  if name = "" ∨ ((name == "extends" ∨ name == "implements") ∧
      !nextIs (behindName cursor) "\x7b") then none
  else playing .name typeName cursor

/-- The head and body of a class behind its keyword. -/
def classRest (self : Self) : Rule :=
  all [optional (typeParameters self), optional (classHeritage self),
    playing .body (classBody self)]

/-- A class in an expression. -/
def classExpression (self : Self) : Rule :=
  construct .classExpression (all [many (decorator self), word "class", optional className,
    classRest self])

end Conformance.Syntax
