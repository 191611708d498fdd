import StaticConfig.Number.Basic
import StaticConfig.Path
import StaticConfig.Source.Kind
import StaticConfig.Source.Operator

/-!
# Syntax trees

The tree of a module keeps what evaluation and name resolution look at: the forms of the
declarative sub-language in full, and of every other form only its kind and where it stands. Types
leave no trace but the wrappers around expressions.
-/

namespace StaticConfig

/-- A piece of source text: the characters from `start` up to `stop` of a file. -/
structure Span where
  file : Path
  start : Nat
  stop : Nat
deriving DecidableEq, Inhabited

/-- An occurrence of a name. -/
structure Ident where
  name : String
  span : Span
deriving DecidableEq

/-- What may stand around an expression without changing its value. -/
inductive Wrapper
  | parentheses
  | asType
  | satisfies
  | asConst
  | nonNull
  | typeAssertion
deriving DecidableEq

/-- The kind of a wrapped expression. -/
def Wrapper.kind : Wrapper → Kind
  | .parentheses => .parenthesizedExpression
  | .asType => .asExpression
  | .satisfies => .satisfiesExpression
  | .asConst => .constAssertion
  | .nonNull => .nonNullExpression
  | .typeAssertion => .typeAssertion

/-- A parameter of an arrow function: a name, or a form that arrow values cannot have. -/
inductive Param
  | name (name : String)
  | pattern (span : Span) (kind : Kind)
deriving DecidableEq

mutual

inductive Expr
  | string (span : Span) (value : String)
  | number (span : Span) (value : Number)
  | bool (span : Span) (value : Bool)
  | null (span : Span)
  /-- Text, and expressions each followed by more text. -/
  | template (span : Span) (head : String) (chunks : List Chunk)
  | array (span : Span) (elements : List Element)
  | object (span : Span) (members : List Member)
  | identifier (ident : Ident)
  | access (span : Span) (target : Expr) (key : AccessKey)
  | call (span : Span) (callee : Callee) (arguments : List Argument)
  | arrow (span : Span) (isAsync : Bool) (params : List Param) (body : ArrowBody)
  | conditional (span : Span) (test yes no : Expr)
  | binary (span : Span) (op : BinaryOp) (left right : Expr)
  | unary (span : Span) (op : UnaryOp) (operand : Expr)
  | wrapped (span : Span) (wrapper : Wrapper) (inner : Expr)
  /-- A form that is only named. -/
  | other (span : Span) (kind : Kind)

/-- An expression of a template and the text after it. -/
inductive Chunk
  | mk (value : Expr) (text : String)

/-- An argument of a call, or a list whose items are arguments. -/
inductive Argument
  | plain (value : Expr)
  | spread (value : Expr)

/-- A place in an array literal; a hole has nothing between its commas. -/
inductive Element
  | hole
  | item (argument : Argument)

/-- A member of an object literal. -/
inductive Member
  | entry (key : PropertyKey) (value : Expr)
  | shorthand (ident : Ident)
  | spread (value : Expr)
  | other (span : Span) (kind : Kind)

/-- The key of an entry. -/
inductive PropertyKey
  | fixed (name : String)
  | number (value : Number)
  | computed (key : Expr)
  | bigInt (span : Span)

/-- What stands after the target of a member access. -/
inductive AccessKey
  | name (name : String)
  | computed (key : Expr)
  | hidden (span : Span)

/-- What is called. -/
inductive Callee
  | value (callee : Expr)
  | super
  | module

/-- The body of an arrow function. -/
inductive ArrowBody
  | value (result : Expr)
  | block (statements : List Stmt)

inductive Stmt
  | block (span : Span) (statements : List Stmt)
  | empty (span : Span)
  | result (span : Span) (value : Option Expr)
  | expression (span : Span) (value : Expr)
  | switch (span : Span) (discriminant : Expr) (clauses : List Clause)
  | declares (span : Span) (declarators : List Declarator)
  /-- A function, class or other declaration, and the value name it binds, if any. -/
  | declaration (span : Span) (kind : Kind) (binds : Option String)
  /-- A form that is only named. -/
  | other (span : Span) (kind : Kind)

/-- A clause of a switch; without a test it is the default. -/
inductive Clause
  | mk (test : Option Expr) (body : List Stmt)

/-- One variable of a variable statement, named unless it is a pattern. -/
inductive Declarator
  | mk (span : Span) (name : Option String) (init : Option Expr)

end

/-! ### Spans and kinds -/

namespace Expr

def span : Expr → Span
  | string s _ | number s _ | bool s _ | null s | template s _ _ | array s _ | object s _
  | access s _ _ | call s _ _ | arrow s _ _ _ | conditional s _ _ _ | binary s _ _ _
  | unary s _ _ | wrapped s _ _ | other s _ => s
  | identifier i => i.span

def kind : Expr → Kind
  | string .. => .stringLiteral
  | number .. => .numericLiteral
  | bool .. => .booleanLiteral
  | null .. => .nullLiteral
  | template .. => .templateLiteral
  | array .. => .arrayLiteral
  | object .. => .objectLiteral
  | identifier .. => .identifier
  | access _ _ (.computed _) => .elementAccess
  | access .. => .propertyAccess
  | call .. => .callExpression
  | arrow .. => .arrowFunction
  | conditional .. => .conditionalExpression
  | binary .. => .binaryExpression
  | unary .. => .prefixUnaryExpression
  | wrapped _ wrapper _ => wrapper.kind
  | other _ kind => kind

end Expr

namespace Stmt

def span : Stmt → Span
  | block s _ | empty s | result s _ | expression s _ | switch s _ _ | declares s _
  | declaration s _ _ | other s _ => s

def kind : Stmt → Kind
  | block .. => .block
  | empty .. => .emptyStatement
  | result .. => .returnStatement
  | expression .. => .expressionStatement
  | switch .. => .switchStatement
  | declares .. => .variableStatement
  | declaration _ kind _ => kind
  | other _ kind => kind

end Stmt

namespace Declarator

def span : Declarator → Span
  | mk s _ _ => s

def name? : Declarator → Option String
  | mk _ n _ => n

def init? : Declarator → Option Expr
  | mk _ _ i => i

end Declarator

/-! ### Modules -/

/-- What an import statement binds a local name to. -/
inductive ImportSpecifier
  /-- The export `imported`, under the name `binds`. -/
  | named (typeOnly : Bool) (imported binds : String)
  | defaultExport (binds : String)
  /-- All exports together, as one object. -/
  | star (span : Span) (binds : String)

/-- What an export statement offers under a name. -/
inductive ExportSpecifier
  /-- The name `given` of this module, or of the source module, as `exported`. -/
  | named (typeOnly : Bool) (given exported : String)
  /-- All exports of the source module together, as one object. -/
  | star (span : Span) (exported : String)

/-- An item of a module. -/
inductive ModuleItem
  | statement (statement : Stmt)
  | exported (declaration : Stmt)
  | imports (typeOnly : Bool) (source : String) (specifiers : List ImportSpecifier)
  | exports (typeOnly : Bool) (source : Option String) (specifiers : List ExportSpecifier)
  | exportAll (typeOnly : Bool) (source : String)
  | defaultValue (value : Expr)
  | defaultDeclaration (span : Span)
  /-- An import or export form that binds no value. -/
  | other

/-- A module: its items in source order. -/
structure Module where
  items : List ModuleItem

/-! ### Nodes -/

/-- What can be handed to an evaluator. -/
inductive Node
  | expr (expr : Expr)
  | stmt (stmt : Stmt)
  | declares (span : Span) (declarators : List Declarator)
  | declarator (declarator : Declarator)
  /-- The body of an arrow function, with the span of the whole function. -/
  | body (span : Span) (body : ArrowBody)
  /-- A declaration that has no value in the sub-language. -/
  | unevaluable (span : Span) (kind : Kind)

namespace Node

def span : Node → Span
  | expr e => e.span
  | stmt s => s.span
  | declares s _ => s
  | declarator d => d.span
  | body s _ => s
  | unevaluable s _ => s

def kind : Node → Kind
  | expr e => e.kind
  | stmt s => s.kind
  | declares .. => .variableStatement
  | declarator _ => .variableDeclaration
  | body .. => .arrowFunction
  | unevaluable _ k => k

end Node

end StaticConfig
