import Conformance.Syntax.Reader
import Conformance.Text.LetterCase
import Conformance.Text.Search
import Conformance.Text.Word

/-!
# Facts about a source

What the checks want to know about a source: its imports and exports, the hooks that
it calls, its components and functions, where it says `any`, and which comments switch
the type checker off. All facts come from one walk over the tree, so each list is in the
order of the walk.
-/

namespace Conformance.Syntax

open Text

/-- One import statement. -/
structure ImportFact where
  module : String
  named : List String
  default : Option String
  whole : Option String
  line : Nat
  deriving Repr, DecidableEq

/-- How a name is exported. -/
inductive ExportKind where
  | named
  | default
  | whole
  deriving Repr, DecidableEq

/-- The word for a kind of export. -/
def ExportKind.word : ExportKind → String
  | .named => "named"
  | .default => "default"
  | .whole => "namespace"

/-- One exported name. A default export without a name of its own is anonymous. -/
structure ExportFact where
  kind : ExportKind
  name : String
  line : Nat
  column : Nat
  anonymous : Bool
  deriving Repr, DecidableEq

/-- One call of a hook. A custom hook is one that neither library provides. -/
structure HookFact where
  name : String
  line : Nat
  column : Nat
  custom : Bool
  deriving Repr, DecidableEq

/-- One component, written as a function or as a class. -/
structure ComponentFact where
  name : String
  functional : Bool
  byClass : Bool
  line : Nat
  deriving Repr, DecidableEq

/-- One function made by a factory of the server library. -/
structure FactoryFact where
  kind : String
  name : String
  line : Nat
  deriving Repr, DecidableEq

/-- One function declaration. -/
structure FunctionFact where
  name : String
  async : Bool
  exported : Bool
  parameterCount : Nat
  line : Nat
  deriving Repr, DecidableEq

/-- Where an `any` stands. -/
inductive AnyContext where
  | parameter
  | binding
  | result
  | property
  | assertion
  | other
  deriving Repr, DecidableEq

/-- The word for a place of an `any`. -/
def AnyContext.word : AnyContext → String
  | .parameter => "parameter"
  | .binding => "variable"
  | .result => "return"
  | .property => "property"
  | .assertion => "assertion"
  | .other => "other"

/-- One `any` in a type annotation or an assertion. -/
structure AnyFact where
  line : Nat
  column : Nat
  context : AnyContext
  name : String
  deriving Repr, DecidableEq

/-- One comment directive that switches the type checker off. -/
structure SuppressionFact where
  directive : String
  line : Nat
  column : Nat
  deriving Repr, DecidableEq

/-- Everything that the walk has found. -/
structure Facts where
  usesClient : Bool
  usesServer : Bool
  imports : List ImportFact
  exports : List ExportFact
  hooks : List HookFact
  components : List ComponentFact
  factories : List FactoryFact
  functions : List FunctionFact
  anyTypes : List AnyFact
  suppressions : List SuppressionFact
  deriving Repr, DecidableEq

/-- The hooks of the component library. -/
def componentHooks : List String := [
  "useState", "useEffect", "useContext", "useReducer", "useCallback", "useMemo", "useRef",
  "useImperativeHandle", "useLayoutEffect", "useDebugValue", "useDeferredValue", "useTransition",
  "useId", "useSyncExternalStore", "useInsertionEffect"]

/-- The hooks of the server library. -/
def serverHooks : List String := ["useQuery", "useMutation", "useAction", "useConvex", "useConvexAuth"]

/-- The factories of the server library. -/
def factoryNames : List String := [
  "query", "mutation", "action", "internalQuery", "internalMutation", "internalAction"]

section

variable (source : List Char)

/-- The source text of a node. -/
def nodeText (node : Node) : String := String.ofList (node.text source)

/-- The source text of a node that may be missing. -/
def optionalText (node : Option Node) : String := (node.map (nodeText source)).getD ""

/-- The first child that is a construct and no comment. -/
def firstNamed? (node : Node) : Option Node :=
  node.namedChildren.find? fun child => !child.is .comment

/-- A quoted text without its quotes. -/
def unquoted (text : List Char) : List Char :=
  match text with
  | quote :: rest =>
    if (quote = '"' ∨ quote = '\'' ∨ quote = '\x60') ∧ rest.getLast? = some quote then rest.dropLast
    else text
  | [] => []

/-- Whether a tree holds a markup element. -/
def holdsElement (node : Node) : Bool :=
  node.preorder.any fun part => part.isAny [.jsxElement, .jsxSelfClosingElement]

/-- Whether a name begins with a capital letter. -/
def isCapitalised (name : String) : Bool := name.toList.head?.any isUppercase

/-- Whether a name has the form of a hook: `use` before a capital letter of ASCII. -/
def isHookName (name : String) : Bool :=
  match name.toList with
  | 'u' :: 's' :: 'e' :: c :: _ => 'A' ≤ c && c ≤ 'Z'
  | _ => false

/-- The texts of the client and server directives in the first statement, comments
apart. -/
def directives (root : Node) : Bool × Bool :=
  match root.children.find? fun child => !child.isAny [.comment, .hashBangLine] with
  | none => (false, false)
  | some first =>
    if !first.is .expressionStatement then (false, false)
    else
      match first.namedChildren with
      | expression :: _ =>
        if expression.is .stringLiteral then
          let text := expression.text source
          (occursIn "use client".toList text, occursIn "use server".toList text)
        else (false, false)
      | [] => (false, false)

/-- The name under which a listed name is known: its other name, if it has one. -/
def localName (entry : Node) : String :=
  optionalText source ((entry.child? .alias).orElse fun _ => entry.child? .name)

/-- What one part of an import clause adds to an import. -/
def addImportPart (fact : ImportFact) (part : Node) : ImportFact :=
  if part.is .identifier then { fact with default := some (nodeText source part) }
  else if part.is .namespaceImport then
    let name := optionalText source (part.namedChildren.find? (·.is .identifier))
    { fact with whole := if name = "" then none else some name }
  else if part.is .namedImports then
    let names := (part.namedChildren.filter (·.is .importSpecifier)).map (localName source)
    { fact with named := fact.named ++ names }
  else fact

/-- The import that a statement makes. One without a source in its own clause makes
none. -/
def importOf (node : Node) : Option ImportFact :=
  (node.child? .source).map fun origin =>
    let module := String.ofList (unquoted (origin.text source))
    let clauses := node.namedChildren.filter (·.is .importClause)
    (clauses.flatMap Node.namedChildren).foldl (addImportPart source)
      ⟨module, [], none, none, node.line⟩

/-- The exports that a statement makes. -/
def exportsOf (node : Node) : List ExportFact :=
  let line := node.line
  let column := node.column source
  let declaration := node.child? .declaration
  if node.hasToken "default" || node.hasToken "=" then
    let target := (declaration.orElse fun _ => node.child? .value).orElse fun _ =>
      if node.hasToken "=" then firstNamed? node else none
    let name := match target with
      | none => ""
      | some target =>
        if target.is .identifier then nodeText source target
        else optionalText source (target.child? .name)
    [⟨.default, if name = "" then "default" else name, line, column, name = ""⟩]
  else
    match declaration with
    | some declaration =>
      if declaration.isAny [.lexicalDeclaration, .variableDeclaration] then
        (declaration.namedChildren.filter (·.is .variableDeclarator)).map fun declarator =>
          ⟨.named, optionalText source (declarator.child? .name), declarator.line,
            declarator.column source, false⟩
      else
        match declaration.child? .name with
        | some name => [⟨.named, nodeText source name, line, column, false⟩]
        | none => []
    | none =>
      let listed := node.namedChildren.flatMap fun child =>
        if child.is .exportClause then
          (child.namedChildren.filter (·.is .exportSpecifier)).map fun entry =>
            ⟨.named, localName source entry, line, column, false⟩
        else if child.is .namespaceExport then
          let name := optionalText source (firstNamed? child)
          [⟨.whole, if name = "" then "*" else name, line, column, false⟩]
        else []
      if listed.isEmpty && node.hasToken "*" then [⟨.whole, "*", line, column, false⟩] else listed

/-- The function that a declaration makes. -/
def functionOf (parent : Option Node) (node : Node) : Option FunctionFact :=
  (node.child? .name).map fun name =>
    let count := match node.child? .parameters with
      | some parameters => (parameters.namedChildren.filter fun child => !child.is .comment).length
      | none => 0
    ⟨nodeText source name, node.hasToken "async", parent.any (·.is .exportStatement), count, node.line⟩

/-- The component that a function declaration makes: a capitalised function whose body
holds a markup element. -/
def functionComponent (node : Node) : Option ComponentFact :=
  match node.child? .name with
  | none => none
  | some name =>
    if isCapitalised (nodeText source name) && (node.child? .body).any holdsElement then
      some ⟨nodeText source name, true, false, node.line⟩
    else none

/-- The component that a variable makes: a capitalised name for a function. -/
def variableComponent (node : Node) : Option ComponentFact :=
  match node.child? .name, node.child? .value with
  | some name, some value =>
    if value.isAny [.arrowFunction, .functionExpression] && name.is .identifier &&
        isCapitalised (nodeText source name) then
      some ⟨nodeText source name, true, false, node.line⟩
    else none
  | _, _ => none

/-- The function that a variable receives from a factory. -/
def factoryOf (node : Node) : Option FactoryFact :=
  match node.child? .name, node.child? .value with
  | some name, some value =>
    if value.is .callExpression then
      match value.child? .callee with
      | some callee =>
        if callee.is .identifier && factoryNames.contains (nodeText source callee) then
          some ⟨nodeText source callee, nodeText source name, node.line⟩
        else none
      | none => none
    else none
  | _, _ => none

/-- The hook that a call calls. -/
def hookOf (node : Node) : Option HookFact :=
  match node.child? .callee with
  | none => none
  | some callee =>
    let name := nodeText source callee
    if callee.is .identifier && isHookName name then
      some ⟨name, node.line, node.column source,
        !componentHooks.contains name && !serverHooks.contains name⟩
    else none

/-- What a class extends and implements, as it is written. -/
def heritageText (node : Node) : Option (List Char) :=
  (node.children.find? (·.is .classHeritage)).map (·.text source)

/-- The component that a class makes: one whose heritage mentions a component. -/
def classComponent (node : Node) : Option ComponentFact :=
  match node.child? .name, heritageText source node with
  | some name, some heritage =>
    if occursIn "Component".toList heritage then some ⟨nodeText source name, false, true, node.line⟩
    else none
  | _, _ => none

/-- Whether a node is the type `any`. -/
def isAnyType (node : Node) : Bool := node.is .predefinedType && nodeText source node == "any"

/-- Where an annotation stands and what it annotates, by its parent. -/
def annotationContext (parent : Option Node) (annotated : Node) : AnyContext × String :=
  match parent with
  | none => (.other, "")
  | some parent =>
    if parent.isAny [.requiredParameter, .optionalParameter] then
      (.parameter, optionalText source (parent.child? .pattern))
    else if parent.is .variableDeclarator then (.binding, optionalText source (parent.child? .name))
    else if annotated.role = some .returnType then (.result, optionalText source (parent.child? .name))
    else if parent.isAny [.publicFieldDefinition, .propertySignature] then
      (.property, optionalText source (parent.child? .name))
    else (.other, "")

/-- The `any` of a type annotation. -/
def annotatedAny (parent : Option Node) (node : Node) : Option AnyFact :=
  match firstNamed? node with
  | none => none
  | some target =>
    if isAnyType source target then
      let (context, name) := annotationContext source parent node
      some ⟨target.line, target.column source, context, name⟩
    else none

/-- The `any` of an assertion. -/
def assertedAny (node : Node) : Option AnyFact :=
  match node.namedChildren.getLast? with
  | none => none
  | some target =>
    if isAnyType source target then some ⟨target.line, target.column source, .assertion, ""⟩ else none

/-- The directive at the start of a text: its name, behind which no word may go on. -/
def directiveAt? (text : List Char) : Option String :=
  ["ignore", "nocheck"].findSome? fun name =>
    match dropStart? ("@ts-" ++ name).toList text with
    | some rest => if rest.head?.any isWord then none else some ("ts-" ++ name)
    | none => none

/-- The directives in a text with their distances from its start. -/
def directivesIn : (offset : Nat) → List Char → List (String × Nat)
  | _, [] => []
  | offset, c :: rest =>
    match directiveAt? (c :: rest) with
    | some name => (name, offset) :: directivesIn (offset + 1) rest
    | none => directivesIn (offset + 1) rest

/-- The directives of a comment. Each is reported on the line of the comment, at the
comment's column plus its distance from the comment's start. -/
def suppressionsOf (node : Node) : List SuppressionFact :=
  (directivesIn 0 (node.text source)).map fun (name, offset) =>
    ⟨name, node.line, node.column source + offset⟩

end

mutual

/-- The node and everything below it in the order of the walk, each with its parent. -/
def withParents (parent : Option Node) : Node → List (Option Node × Node)
  | .mk kind role span children =>
    (parent, .mk kind role span children) :: withParentsAll (.mk kind role span children) children

/-- The trees below a node in the order of the walk. -/
def withParentsAll (parent : Node) : List Node → List (Option Node × Node)
  | [] => []
  | node :: rest => withParents (some parent) node ++ withParentsAll parent rest

end

/-- The components that a node makes. -/
def componentsOf (source : List Char) (node : Node) : List ComponentFact :=
  if node.isAny [.functionDeclaration, .generatorFunctionDeclaration] then
    (functionComponent source node).toList
  else if node.is .variableDeclarator then (variableComponent source node).toList
  else if node.isAny [.classDeclaration, .abstractClassDeclaration, .classExpression] then
    (classComponent source node).toList
  else []

/-- The `any` that a node says. -/
def anyOf (source : List Char) (parent : Option Node) (node : Node) : Option AnyFact :=
  if node.is .annotatedType then annotatedAny source parent node
  else if node.is .asExpression then assertedAny source node
  else none

/-- All facts about a source, from its tree. -/
def Facts.ofTree (source : List Char) (root : Node) : Facts :=
  let visited := withParents none root
  let nodes := visited.map (·.2)
  let (client, server) := directives source root
  let functions := visited.filterMap fun (parent, node) =>
    if node.isAny [.functionDeclaration, .generatorFunctionDeclaration] then functionOf source parent node
    else none
  { usesClient := client
    usesServer := server
    imports := (nodes.filter (·.is .importStatement)).filterMap (importOf source)
    exports := (nodes.filter (·.is .exportStatement)).flatMap (exportsOf source)
    hooks := (nodes.filter (·.is .callExpression)).filterMap (hookOf source)
    components := nodes.flatMap (componentsOf source)
    factories := (nodes.filter (·.is .variableDeclarator)).filterMap (factoryOf source)
    functions := functions
    anyTypes := visited.filterMap fun (parent, node) => anyOf source parent node
    suppressions := (nodes.filter (·.is .comment)).flatMap (suppressionsOf source) }

end Conformance.Syntax
