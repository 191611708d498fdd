/-!
# Kinds of syntax

The names by which diagnostics speak of syntactic forms.
-/

namespace StaticConfig

/-- A syntactic form. -/
inductive Kind
  -- Expressions.
  | thisExpression | arrayLiteral | objectLiteral | functionExpression | prefixUnaryExpression
  | updateExpression | binaryExpression | assignmentExpression | elementAccess | propertyAccess
  | superPropertyAccess | conditionalExpression | callExpression | newExpression | commaExpression
  | identifier | templateLiteral | taggedTemplate | arrowFunction | classExpression
  | yieldExpression | awaitExpression | parenthesizedExpression | asExpression
  | satisfiesExpression | constAssertion | nonNullExpression | typeAssertion | optionalChain
  | expression | stringLiteral | numericLiteral | booleanLiteral | nullLiteral | bigIntLiteral
  | regularExpressionLiteral
  -- Statements.
  | block | emptyStatement | returnStatement | expressionStatement | switchStatement | ifStatement
  | throwStatement | tryStatement | breakStatement | continueStatement | forStatement
  | whileStatement | statement
  -- Declarations and names that modules bind.
  | variableStatement | variableDeclaration | functionDeclaration | classDeclaration
  | enumDeclaration | moduleDeclaration | interfaceDeclaration | typeAliasDeclaration
  | declaration | defaultDeclaration | namespaceImport | namespaceExport
  -- Members of object literals.
  | getAccessor | setAccessor | methodDeclaration | shorthandPropertyAssignment
  -- Parameters.
  | arrayBindingPattern | objectBindingPattern | restParameter | defaultParameter | parameter
  -- Forms that only a diagnostic names.
  | asyncArrowFunction | superCall | importCall | privateIdentifier
deriving DecidableEq

/-- The name of a form in diagnostics. -/
def Kind.name : Kind → String
  | .thisExpression => "ThisExpression"
  | .arrayLiteral => "ArrayLiteral"
  | .objectLiteral => "ObjectLiteral"
  | .functionExpression => "FunctionExpression"
  | .prefixUnaryExpression => "PrefixUnaryExpression"
  | .updateExpression => "UpdateExpression"
  | .binaryExpression => "BinaryExpression"
  | .assignmentExpression => "AssignmentExpression"
  | .elementAccess => "ElementAccess"
  | .propertyAccess => "PropertyAccess"
  | .superPropertyAccess => "SuperPropertyAccess"
  | .conditionalExpression => "ConditionalExpression"
  | .callExpression => "CallExpression"
  | .newExpression => "NewExpression"
  | .commaExpression => "CommaExpression"
  | .identifier => "Identifier"
  | .templateLiteral => "TemplateLiteral"
  | .taggedTemplate => "TaggedTemplate"
  | .arrowFunction => "ArrowFunction"
  | .classExpression => "ClassExpression"
  | .yieldExpression => "YieldExpression"
  | .awaitExpression => "AwaitExpression"
  | .parenthesizedExpression => "ParenthesizedExpression"
  | .asExpression => "AsExpression"
  | .satisfiesExpression => "SatisfiesExpression"
  | .constAssertion => "ConstAssertion"
  | .nonNullExpression => "NonNullExpression"
  | .typeAssertion => "TypeAssertion"
  | .optionalChain => "OptionalChain"
  | .expression => "Expression"
  | .stringLiteral => "StringLiteral"
  | .numericLiteral => "NumericLiteral"
  | .booleanLiteral => "BooleanLiteral"
  | .nullLiteral => "NullLiteral"
  | .bigIntLiteral => "BigIntLiteral"
  | .regularExpressionLiteral => "RegularExpressionLiteral"
  | .block => "Block"
  | .emptyStatement => "EmptyStatement"
  | .returnStatement => "ReturnStatement"
  | .expressionStatement => "ExpressionStatement"
  | .switchStatement => "SwitchStatement"
  | .ifStatement => "IfStatement"
  | .throwStatement => "ThrowStatement"
  | .tryStatement => "TryStatement"
  | .breakStatement => "BreakStatement"
  | .continueStatement => "ContinueStatement"
  | .forStatement => "ForStatement"
  | .whileStatement => "WhileStatement"
  | .statement => "Statement"
  | .variableStatement => "VariableStatement"
  | .variableDeclaration => "VariableDeclaration"
  | .functionDeclaration => "FunctionDeclaration"
  | .classDeclaration => "ClassDeclaration"
  | .enumDeclaration => "EnumDeclaration"
  | .moduleDeclaration => "ModuleDeclaration"
  | .interfaceDeclaration => "InterfaceDeclaration"
  | .typeAliasDeclaration => "TypeAliasDeclaration"
  | .declaration => "Declaration"
  | .defaultDeclaration => "DefaultDeclaration"
  | .namespaceImport => "NamespaceImport"
  | .namespaceExport => "NamespaceExport"
  | .getAccessor => "GetAccessor"
  | .setAccessor => "SetAccessor"
  | .methodDeclaration => "MethodDeclaration"
  | .shorthandPropertyAssignment => "ShorthandPropertyAssignment"
  | .arrayBindingPattern => "ArrayBindingPattern"
  | .objectBindingPattern => "ObjectBindingPattern"
  | .restParameter => "RestParameter"
  | .defaultParameter => "DefaultParameter"
  | .parameter => "Parameter"
  | .asyncArrowFunction => "AsyncArrowFunction"
  | .superCall => "SuperCall"
  | .importCall => "ImportCall"
  | .privateIdentifier => "PrivateIdentifier"

end StaticConfig
