/-!
# Kinds of syntax nodes

The names of the constructs of the TypeScript language and its extension with markup
elements. A node is named by one of these kinds; a node that stands for a keyword or
a mark alone is a token and has its own text for a name.
-/

namespace Conformance.Syntax

/-- The named constructs. -/
inductive Construct where
  | program
  | hashBangLine
  | comment
  | identifier
  | propertyIdentifier
  | privatePropertyIdentifier
  | typeIdentifier
  | statementIdentifier
  | shorthandPropertyIdentifier
  | shorthandPropertyIdentifierPattern
  | undefinedValue
  | importStatement
  | importClause
  | namedImports
  | namespaceImport
  | importSpecifier
  | importRequireClause
  | importAttribute
  | importAlias
  | exportStatement
  | exportClause
  | exportSpecifier
  | namespaceExport
  | expressionStatement
  | variableDeclaration
  | lexicalDeclaration
  | variableDeclarator
  | statementBlock
  | elseClause
  | ifStatement
  | switchStatement
  | switchBody
  | switchCase
  | switchDefault
  | forStatement
  | forInStatement
  | whileStatement
  | doStatement
  | tryStatement
  | catchClause
  | finallyClause
  | withStatement
  | breakStatement
  | continueStatement
  | debuggerStatement
  | returnStatement
  | throwStatement
  | emptyStatement
  | labeledStatement
  | functionDeclaration
  | generatorFunctionDeclaration
  | functionSignature
  | functionExpression
  | generatorFunction
  | arrowFunction
  | formalParameters
  | requiredParameter
  | optionalParameter
  | classDeclaration
  | abstractClassDeclaration
  | classExpression
  | classHeritage
  | extendsClause
  | implementsClause
  | classBody
  | classStaticBlock
  | methodDefinition
  | methodSignature
  | abstractMethodSignature
  | publicFieldDefinition
  | decorator
  | accessibilityModifier
  | overrideModifier
  | parenthesizedExpression
  | sequenceExpression
  | assignmentExpression
  | augmentedAssignmentExpression
  | ternaryExpression
  | binaryExpression
  | unaryExpression
  | updateExpression
  | awaitExpression
  | yieldExpression
  | asExpression
  | satisfiesExpression
  | nonNullExpression
  | typeAssertion
  | instantiationExpression
  | newExpression
  | callExpression
  | memberExpression
  | subscriptExpression
  | optionalChain
  | arguments
  | spreadElement
  | metaProperty
  | importKeyword
  | thisExpression
  | superExpression
  | trueLiteral
  | falseLiteral
  | nullLiteral
  | numberLiteral
  | stringLiteral
  | stringFragment
  | escapeSequence
  | templateString
  | templateSubstitution
  | regex
  | regexPattern
  | regexFlags
  | arrayLiteral
  | objectLiteral
  | pair
  | computedPropertyName
  | arrayPattern
  | objectPattern
  | pairPattern
  | assignmentPattern
  | objectAssignmentPattern
  | restPattern
  | jsxElement
  | jsxOpeningElement
  | jsxClosingElement
  | jsxSelfClosingElement
  | jsxAttribute
  | jsxExpression
  | jsxText
  | jsxNamespaceName
  | htmlCharacterReference
  | interfaceDeclaration
  | interfaceBody
  | extendsTypeClause
  | typeAliasDeclaration
  | enumDeclaration
  | enumBody
  | enumAssignment
  | internalModule
  | ambientModule
  | ambientDeclaration
  | nestedIdentifier
  | annotatedType
  | annotatedPredicate
  | annotatedAssertion
  | typePredicate
  | assertion
  | typeParameters
  | typeParameter
  | typeConstraint
  | defaultType
  | typeArguments
  | predefinedType
  | nestedTypeIdentifier
  | genericType
  | objectType
  | arrayType
  | tupleType
  | optionalType
  | restType
  | unionType
  | intersectionType
  | conditionalType
  | functionType
  | constructorType
  | parenthesizedType
  | literalType
  | templateLiteralType
  | templateType
  | typeQuery
  | indexTypeQuery
  | lookupType
  | readonlyType
  | inferType
  | thisType
  | existentialType
  | mappedTypeClause
  | propertySignature
  | callSignature
  | constructSignature
  | indexSignature
  | omittingAnnotatedType
  | addingAnnotatedType
  | optingAnnotatedType
  deriving Repr, DecidableEq

/-- The name of a construct. -/
def Construct.name : Construct → String
  | .program => "program"
  | .hashBangLine => "hash_bang_line"
  | .comment => "comment"
  | .identifier => "identifier"
  | .propertyIdentifier => "property_identifier"
  | .privatePropertyIdentifier => "private_property_identifier"
  | .typeIdentifier => "type_identifier"
  | .statementIdentifier => "statement_identifier"
  | .shorthandPropertyIdentifier => "shorthand_property_identifier"
  | .shorthandPropertyIdentifierPattern => "shorthand_property_identifier_pattern"
  | .undefinedValue => "undefined"
  | .importStatement => "import_statement"
  | .importClause => "import_clause"
  | .namedImports => "named_imports"
  | .namespaceImport => "namespace_import"
  | .importSpecifier => "import_specifier"
  | .importRequireClause => "import_require_clause"
  | .importAttribute => "import_attribute"
  | .importAlias => "import_alias"
  | .exportStatement => "export_statement"
  | .exportClause => "export_clause"
  | .exportSpecifier => "export_specifier"
  | .namespaceExport => "namespace_export"
  | .expressionStatement => "expression_statement"
  | .variableDeclaration => "variable_declaration"
  | .lexicalDeclaration => "lexical_declaration"
  | .variableDeclarator => "variable_declarator"
  | .statementBlock => "statement_block"
  | .elseClause => "else_clause"
  | .ifStatement => "if_statement"
  | .switchStatement => "switch_statement"
  | .switchBody => "switch_body"
  | .switchCase => "switch_case"
  | .switchDefault => "switch_default"
  | .forStatement => "for_statement"
  | .forInStatement => "for_in_statement"
  | .whileStatement => "while_statement"
  | .doStatement => "do_statement"
  | .tryStatement => "try_statement"
  | .catchClause => "catch_clause"
  | .finallyClause => "finally_clause"
  | .withStatement => "with_statement"
  | .breakStatement => "break_statement"
  | .continueStatement => "continue_statement"
  | .debuggerStatement => "debugger_statement"
  | .returnStatement => "return_statement"
  | .throwStatement => "throw_statement"
  | .emptyStatement => "empty_statement"
  | .labeledStatement => "labeled_statement"
  | .functionDeclaration => "function_declaration"
  | .generatorFunctionDeclaration => "generator_function_declaration"
  | .functionSignature => "function_signature"
  | .functionExpression => "function_expression"
  | .generatorFunction => "generator_function"
  | .arrowFunction => "arrow_function"
  | .formalParameters => "formal_parameters"
  | .requiredParameter => "required_parameter"
  | .optionalParameter => "optional_parameter"
  | .classDeclaration => "class_declaration"
  | .abstractClassDeclaration => "abstract_class_declaration"
  | .classExpression => "class"
  | .classHeritage => "class_heritage"
  | .extendsClause => "extends_clause"
  | .implementsClause => "implements_clause"
  | .classBody => "class_body"
  | .classStaticBlock => "class_static_block"
  | .methodDefinition => "method_definition"
  | .methodSignature => "method_signature"
  | .abstractMethodSignature => "abstract_method_signature"
  | .publicFieldDefinition => "public_field_definition"
  | .decorator => "decorator"
  | .accessibilityModifier => "accessibility_modifier"
  | .overrideModifier => "override_modifier"
  | .parenthesizedExpression => "parenthesized_expression"
  | .sequenceExpression => "sequence_expression"
  | .assignmentExpression => "assignment_expression"
  | .augmentedAssignmentExpression => "augmented_assignment_expression"
  | .ternaryExpression => "ternary_expression"
  | .binaryExpression => "binary_expression"
  | .unaryExpression => "unary_expression"
  | .updateExpression => "update_expression"
  | .awaitExpression => "await_expression"
  | .yieldExpression => "yield_expression"
  | .asExpression => "as_expression"
  | .satisfiesExpression => "satisfies_expression"
  | .nonNullExpression => "non_null_expression"
  | .typeAssertion => "type_assertion"
  | .instantiationExpression => "instantiation_expression"
  | .newExpression => "new_expression"
  | .callExpression => "call_expression"
  | .memberExpression => "member_expression"
  | .subscriptExpression => "subscript_expression"
  | .optionalChain => "optional_chain"
  | .arguments => "arguments"
  | .spreadElement => "spread_element"
  | .metaProperty => "meta_property"
  | .importKeyword => "import"
  | .thisExpression => "this"
  | .superExpression => "super"
  | .trueLiteral => "true"
  | .falseLiteral => "false"
  | .nullLiteral => "null"
  | .numberLiteral => "number"
  | .stringLiteral => "string"
  | .stringFragment => "string_fragment"
  | .escapeSequence => "escape_sequence"
  | .templateString => "template_string"
  | .templateSubstitution => "template_substitution"
  | .regex => "regex"
  | .regexPattern => "regex_pattern"
  | .regexFlags => "regex_flags"
  | .arrayLiteral => "array"
  | .objectLiteral => "object"
  | .pair => "pair"
  | .computedPropertyName => "computed_property_name"
  | .arrayPattern => "array_pattern"
  | .objectPattern => "object_pattern"
  | .pairPattern => "pair_pattern"
  | .assignmentPattern => "assignment_pattern"
  | .objectAssignmentPattern => "object_assignment_pattern"
  | .restPattern => "rest_pattern"
  | .jsxElement => "jsx_element"
  | .jsxOpeningElement => "jsx_opening_element"
  | .jsxClosingElement => "jsx_closing_element"
  | .jsxSelfClosingElement => "jsx_self_closing_element"
  | .jsxAttribute => "jsx_attribute"
  | .jsxExpression => "jsx_expression"
  | .jsxText => "jsx_text"
  | .jsxNamespaceName => "jsx_namespace_name"
  | .htmlCharacterReference => "html_character_reference"
  | .interfaceDeclaration => "interface_declaration"
  | .interfaceBody => "interface_body"
  | .extendsTypeClause => "extends_type_clause"
  | .typeAliasDeclaration => "type_alias_declaration"
  | .enumDeclaration => "enum_declaration"
  | .enumBody => "enum_body"
  | .enumAssignment => "enum_assignment"
  | .internalModule => "internal_module"
  | .ambientModule => "module"
  | .ambientDeclaration => "ambient_declaration"
  | .nestedIdentifier => "nested_identifier"
  | .annotatedType => "type_annotation"
  | .annotatedPredicate => "type_predicate_annotation"
  | .annotatedAssertion => "asserts_annotation"
  | .typePredicate => "type_predicate"
  | .assertion => "asserts"
  | .typeParameters => "type_parameters"
  | .typeParameter => "type_parameter"
  | .typeConstraint => "constraint"
  | .defaultType => "default_type"
  | .typeArguments => "type_arguments"
  | .predefinedType => "predefined_type"
  | .nestedTypeIdentifier => "nested_type_identifier"
  | .genericType => "generic_type"
  | .objectType => "object_type"
  | .arrayType => "array_type"
  | .tupleType => "tuple_type"
  | .optionalType => "optional_type"
  | .restType => "rest_type"
  | .unionType => "union_type"
  | .intersectionType => "intersection_type"
  | .conditionalType => "conditional_type"
  | .functionType => "function_type"
  | .constructorType => "constructor_type"
  | .parenthesizedType => "parenthesized_type"
  | .literalType => "literal_type"
  | .templateLiteralType => "template_literal_type"
  | .templateType => "template_type"
  | .typeQuery => "type_query"
  | .indexTypeQuery => "index_type_query"
  | .lookupType => "lookup_type"
  | .readonlyType => "readonly_type"
  | .inferType => "infer_type"
  | .thisType => "this_type"
  | .existentialType => "existential_type"
  | .mappedTypeClause => "mapped_type_clause"
  | .propertySignature => "property_signature"
  | .callSignature => "call_signature"
  | .constructSignature => "construct_signature"
  | .indexSignature => "index_signature"
  | .omittingAnnotatedType => "omitting_type_annotation"
  | .addingAnnotatedType => "adding_type_annotation"
  | .optingAnnotatedType => "opting_type_annotation"

/-- What a node stands for: a construct, or a keyword or mark of the language. -/
inductive Kind where
  | construct (construct : Construct)
  | token (text : String)
  deriving Repr, DecidableEq

/-- The name of a kind; that of a token is its text. -/
def Kind.name : Kind → String
  | .construct named => named.name
  | .token text => text

/-- The parts of a construct that are asked for by name. -/
inductive Role where
  | name
  | value
  | alias
  | source
  | declaration
  | parameters
  | returnType
  | body
  | callee
  | object
  | property
  | pattern
  deriving Repr, DecidableEq

end Conformance.Syntax
