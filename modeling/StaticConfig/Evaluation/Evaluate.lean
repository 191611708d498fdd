import StaticConfig.Evaluation.Call
import StaticConfig.Evaluation.Member

/-!
# Evaluation

`evaluate` computes the value of a node in a scope. Every expression, statement, followed
definition and entered arrow function is one step, and at most `limit` steps may be nested: the
recursion is on the number of steps that may still be entered, which is the limit less the length
of the trail.

The rules for the syntactic forms are given once for an arbitrary `visit`, the evaluation of a node
inside; `evaluate` ties the knot.
-/

namespace StaticConfig

section Rules

variable (definitions : Definitions) (visit : Scope Value → Node → Eval Value)

/-- An expression inside the current step. -/
def visitExpr (scope : Scope Value) (e : Expr) : Eval Value := visit scope (.expr e)

/-! ### Names and members -/

/-- The value of a name: its binding, else that of its first declaration, which is evaluated
without any of the bindings. -/
def evalName (scope : Scope Value) (ident : Ident) : Eval Value :=
  if ident.name = "undefined" then return .undefined
  else match scope.lookup? ident.name with
    | some value => return value
    | none =>
      match definitions.candidates ident with
      | node :: _ => visit .root node
      | [] => Eval.fail (.unresolvedIdentifier ident.name)

/-- Reads a member, binding a method to its receiver. -/
def readMember (target : Value) (name : String) : Eval Value := do
  match ← liftExcept (target.member name) with
  | .value value => return value
  | .allowed m => Eval.newMethod target m

/-- A member access; the target is evaluated before the key. -/
def evalAccess (scope : Scope Value) (target : Expr) (key : AccessKey) : Eval Value := do
  let target ← visitExpr visit scope target
  match key with
  | .name name => readMember target name
  | .computed key => do readMember target (← visitExpr visit scope key).display
  | .hidden span => definitions.unsupported .privateIdentifier span

/-! ### Containers -/

/-- The values that an argument stands for: itself, or the items of the list it spreads. -/
def evalArgument (scope : Scope Value) : Argument → Eval (List Value)
  | .plain e => return [← visitExpr visit scope e]
  | .spread e => do
    match ← visitExpr visit scope e with
    | .list _ items => return items
    | value => Eval.fail (.typeMismatch "list" value.typeName)

/-- The items that an element of an array literal stands for. -/
def evalElement (scope : Scope Value) : Element → Eval (List Value)
  | .hole => return [.undefined]
  | .item argument => evalArgument visit scope argument

/-- The text of a key. -/
def evalKey (scope : Scope Value) : PropertyKey → Eval String
  | .fixed name => return name
  | .number value => return value.toString
  | .computed key => return (← visitExpr visit scope key).display
  | .bigInt span => definitions.unsupported .bigIntLiteral span

/-- Writes a member of an object literal into the record that the members before it left. -/
def evalMember (scope : Scope Value) (fields : Record Value) : Member → Eval (Record Value)
  | .entry key e => do
    let key ← evalKey definitions visit scope key
    return fields.insert key (← visitExpr visit scope e)
  | .shorthand ident => return fields.insert ident.name (← evalName definitions visit scope ident)
  | .spread e => do
    match ← visitExpr visit scope e with
    | .record _ other => return fields.merge other
    | value => Eval.fail (.typeMismatch "record" value.typeName)
  | .other span kind => definitions.unsupported kind span

/-- The text of a template after the text before its chunks. -/
def evalChunks (scope : Scope Value) (text : String) : List Chunk → Eval String
  | [] => return text
  | .mk e next :: rest => do
    let value ← visitExpr visit scope e
    evalChunks scope (text ++ value.display ++ next) rest

/-! ### Functions -/

/-- The names of the parameters; the first one that is no plain name stops the evaluation. -/
def paramNames : List Param → Eval (List String)
  | [] => return []
  | .name name :: rest => return name :: (← paramNames rest)
  | .pattern span kind :: _ => definitions.unsupported kind span

/-- An arrow function keeps the scope it is evaluated in. -/
def evalArrow (scope : Scope Value) (span : Span) (isAsync : Bool) (params : List Param)
    (body : ArrowBody) : Eval Value :=
  if isAsync then definitions.unsupported .asyncArrowFunction span
  else do Eval.newClosure ⟨span, ← paramNames definitions params, body⟩ scope

/-- A call; the callee is evaluated before the arguments. -/
def evalCall (scope : Scope Value) (span : Span) (callee : Callee) (args : List Argument) :
    Eval Value :=
  match callee with
  | .value callee => do
    let callee ← visitExpr visit scope callee
    let args ← args.mapM (evalArgument visit scope)
    callee.call visit args.flatten
  | .super => definitions.unsupported .superCall span
  | .module => definitions.unsupported .importCall span

variable {definitions visit} in
theorem run_evalCall {scope : Scope Value} {span : Span} {callee : Expr} {args : List Argument}
    {f : Value} {groups : List (List Value)} {m before after : Machine}
    (hcallee : (visit scope (.expr callee)).run m = (.ok f, before))
    (hargs : (args.mapM (evalArgument visit scope)).run before = (.ok groups, after)) :
    (evalCall definitions visit scope span (.value callee) args).run m =
      (f.call visit groups.flatten).run after := by
  rw [evalCall, Eval.run_bind, visitExpr, hcallee]
  dsimp only
  rw [Eval.run_bind, hargs]

/-! ### Operators -/

/-- A binary operation. An unsupported operator is reported before its operands are evaluated. -/
def evalBinary (scope : Scope Value) (op : BinaryOp) (left right : Expr) : Eval Value := do
  match ← liftExcept op.form with
  | .strictEqual =>
    let left ← visitExpr visit scope left
    let right ← visitExpr visit scope right
    return .bool (left.strictEquals right)
  | .logicalOr =>
    let left ← visitExpr visit scope left
    if left.isTruthy then return left else visitExpr visit scope right

/-- A unary operation. An unsupported operator is reported before its operand is evaluated. -/
def evalUnary (scope : Scope Value) (op : UnaryOp) (operand : Expr) : Eval Value :=
  if op.isSupported then do liftExcept (op.apply (← visitExpr visit scope operand))
  else Eval.fail (.unsupportedOperator op.text)

/-- A choice; only the branch taken is evaluated. -/
def evalConditional (scope : Scope Value) (test yes no : Expr) : Eval Value := do
  if (← visitExpr visit scope test).isTruthy then visitExpr visit scope yes
  else visitExpr visit scope no

/-! ### Expressions -/

/-- The rule of an expression. -/
def evalExpr (scope : Scope Value) (e : Expr) : Eval Value :=
  match e with
  | .string _ value => return .string value
  | .number _ value => return .number value
  | .bool _ value => return .bool value
  | .null _ => return .null
  | .template _ head chunks => return .string (← evalChunks visit scope head chunks)
  | .array _ elements => do
    let items ← elements.mapM (evalElement visit scope)
    Eval.newList items.flatten
  | .object _ members => do
    Eval.newRecord (← members.foldlM (evalMember definitions visit scope) .empty)
  | .identifier ident => evalName definitions visit scope ident
  | .access _ target key => evalAccess definitions visit scope target key
  | .call span callee args => evalCall definitions visit scope span callee args
  | .arrow span isAsync params body => evalArrow definitions scope span isAsync params body
  | .conditional _ test yes no => evalConditional visit scope test yes no
  | .binary _ op left right => evalBinary visit scope op left right
  | .unary _ op operand => evalUnary visit scope op operand
  | .wrapped _ _ inner => visitExpr visit scope inner
  | .other span kind => definitions.unsupported kind span

/-! ### Statements -/

/-- The value of statements in a block is that of the first one. -/
def evalBlock (scope : Scope Value) : List Stmt → Eval Value
  | [] => return .undefined
  | first :: _ => visit scope (.stmt first)

/-- A variable without an initializer is undefined. -/
def evalInit (scope : Scope Value) : Option Expr → Eval Value
  | some e => visitExpr visit scope e
  | none => return .undefined

/-- A variable statement must declare exactly one variable. -/
def evalVariables (scope : Scope Value) : List Declarator → Eval Value
  | [declarator] => evalInit visit scope declarator.init?
  | declarators => Eval.fail (.arity declarators.length)

/-- The body of a clause must be exactly one statement. -/
def evalClauseBody (scope : Scope Value) : List Stmt → Eval Value
  | [statement] => visit scope (.stmt statement)
  | statements => Eval.fail (.arity statements.length)

/-- Scans the clauses of a switch in order. Tests are evaluated until one has matched, a default
counts as a match, and from the match on the first clause with a body is the result. -/
def evalClauses (scope : Scope Value) (discriminant : Value) (matched : Bool) :
    List Clause → Eval Value
  | [] => return .undefined
  | .mk test body :: rest => do
    let matched ←
      match test with
      | none => pure true
      | some test =>
        if matched then pure true
        else pure ((← visitExpr visit scope test).strictEquals discriminant)
    if matched && !body.isEmpty then evalClauseBody visit scope body
    else evalClauses scope discriminant matched rest

/-- The rule of a statement. -/
def evalStmt (scope : Scope Value) (s : Stmt) : Eval Value :=
  match s with
  | .block _ statements => evalBlock visit scope statements
  | .empty _ => return .undefined
  | .result _ value => evalInit visit scope value
  | .expression _ e => visitExpr visit scope e
  | .switch _ discriminant clauses => do
    let discriminant ← visitExpr visit scope discriminant
    evalClauses visit scope discriminant false clauses
  | .declares _ declarators => evalVariables visit scope declarators
  | .declaration span kind _ => definitions.unsupported kind span
  | .other span kind => definitions.unsupported kind span

/-! ### Nodes -/

/-- The rule of a node. -/
def evalNode (scope : Scope Value) (node : Node) : Eval Value :=
  match node with
  | .expr e => evalExpr definitions visit scope e
  | .stmt s => evalStmt definitions visit scope s
  | .declares _ declarators => evalVariables visit scope declarators
  | .declarator declarator => evalInit visit scope declarator.init?
  | .body _ (.value result) => visitExpr visit scope result
  | .body _ (.block statements) => evalBlock visit scope statements
  | .unevaluable span kind => definitions.unsupported kind span

end Rules

/-! ### The evaluator -/

/-- Evaluates a node when `remaining` more steps may be nested. -/
def evaluate (definitions : Definitions) (limit : Nat) :
    (remaining : Nat) → Scope Value → Node → Eval Value
  | 0, _, _ => Eval.fail (.recursionLimit limit)
  | remaining + 1, scope, node =>
    Eval.within node.span
      (evalNode definitions (evaluate definitions limit remaining) scope node)

/-- How many steps may be nested unless the caller says otherwise. -/
def defaultLimit : Nat := 1024

/-- An evaluator: where names are looked up, and how many steps may be nested. -/
structure Evaluator where
  definitions : Definitions
  limit : Nat

namespace Evaluator

/-- Evaluates a node in a scope. -/
def eval (evaluator : Evaluator) (scope : Scope Value) (node : Node) : Eval Value :=
  evaluate evaluator.definitions evaluator.limit evaluator.limit scope node

/-- Calls a value. -/
def call (evaluator : Evaluator) (callee : Value) (args : List Value) : Eval Value :=
  callee.call (evaluate evaluator.definitions evaluator.limit evaluator.limit) args

end Evaluator

end StaticConfig
