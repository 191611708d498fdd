import StaticConfig.Source.Parser.Access

/-!
# Expressions

Operators before, after and between operands, by precedence, and around them conditional expressions
and assignments.
-/

namespace StaticConfig

open Parse

namespace Grammar

variable (g : Grammar)

/-! ### Operators -/

/-- An expression without the parentheses around it. -/
def bare : Expr → Expr
  | .wrapped _ .parentheses inner => bare inner
  | e => e

/-- Whether `delete` can have the operand: only members of something can be deleted. -/
def deletable : Expr → Bool
  | .access .. => true
  | .other _ kind => kind == .optionalChain || kind == .superPropertyAccess
  | _ => false

/-- What is at fault if an update changes the operand. -/
def updateFault (c : Cover) : Option Nat :=
  match c.expr with
  | .array .. | .object .. => some c.start
  | _ => c.asTarget

/-- An operand, updated if an update follows on the line. -/
def updated (s : Setting) (c : Cover) : Parse Cover := do
  if c.isArrow then return c
  if (← isAnySign ["++", "--"]) && !(← afterLine) then
    reportAny (updateFault c)
    advance
    otherFrom s c.start .updateExpression
  else return c

/-- The rule of an operand with the operators before and after it. -/
def unaryRule (s : Setting) : Parse Cover := do
  let pos ← start
  match ← lexeme with
  | .sign "<" =>
    if s.elements then operandForm s
    else
      advance
      if ← isWord "const" then
        advance
        expectSign ">"
        let inner ← g.unary s
        return ⟨.wrapped (← spanFrom s pos) .asConst inner.expr, some pos, some pos, false⟩
      g.type s true
      expectSign ">"
      let inner ← g.unary s
      return ⟨.wrapped (← spanFrom s pos) .typeAssertion inner.expr, some pos, inner.asTarget,
        false⟩
  | .sign "++" | .sign "--" =>
    advance
    let operand ← g.unary s
    reportAny (updateFault operand)
    otherFrom s pos .updateExpression
  | .sign text =>
    match UnaryOp.ofText? text with
    | some op => advance; operation s pos op
    | none => operandForm s
  | .name "typeof" => advance; operation s pos .typeOf
  | .name "void" => advance; operation s pos .void
  | .name "delete" => advance; operation s pos .delete
  | .name "await" =>
    advance
    if s.inFunction && !s.inAsync then report (← start)
    if ← isAnySign [")", "]", ";", ","] then stopAt pos
    let _ ← g.unary s
    otherFrom s pos .awaitExpression
  | _ => operandForm s
where
  /-- An operator before its operand. -/
  operation (s : Setting) (pos : Nat) (op : UnaryOp) : Parse Cover := do
    let operand ← g.unary s
    let deleted := bare operand.expr
    if op == .delete && !deletable deleted then report deleted.span.start
    return .value (.unary (← spanFrom s pos) op operand.expr)
  /-- An operand, updated or not. -/
  operandForm (s : Setting) : Parse Cover := do updated s (← postfixed g s)

/-- The operator at the current token and how many characters it takes. -/
def operatorHere? (s : Setting) : Parse (Option (BinaryOp × Nat)) := do
  match ← lexeme with
  | .name "in" => return if s.allowIn then some (.membership, 2) else none
  | .name "instanceof" => return some (.instanceOf, 10)
  | .sign ">" =>
    let here := (← get).current.start.rest
    let joined := here.takeWhile fun c => c == '>' || c == '='
    return match String.ofList joined with
      | ">" => some (.greater, 1)
      | ">=" => some (.greaterEqual, 2)
      | ">>" => some (.shiftRight, 2)
      | ">>>" => some (.shiftRightUnsigned, 3)
      | _ => none
  | .sign text => return (BinaryOp.ofText? text).map (·, text.length)
  | _ => return none

/-- What is at fault if the two operators of a logical expression are mixed with `??`. -/
def mixFault (op : BinaryOp) (left right : Cover) : Option Nat :=
  let isLogical (e : Expr) : Bool :=
    match e with
    | .binary _ .logicalOr .. | .binary _ .logicalAnd .. => true
    | _ => false
  let isCoalesce (e : Expr) : Bool :=
    match e with
    | .binary _ .coalesce .. => true
    | _ => false
  match op with
  | .coalesce =>
    if isLogical left.expr then some left.start
    else if isLogical right.expr then some right.start
    else none
  | .logicalOr | .logicalAnd =>
    if isCoalesce left.expr then some left.start
    else if isCoalesce right.expr then some right.start
    else none
  | _ => none

/-- One operator with its right operand, or one assertion, after a left operand. -/
def operatorStep (s : Setting) (bound : Nat) (left : Cover) : Parse (Cover × Bool) := do
  let pos := left.start
  if (← isAnyWord ["as", "satisfies"]) && !(← afterLine) then
    let isAs ← isWord "as"
    advance
    if isAs && (← isWord "const") then
      advance
      let span ← spanFrom s pos
      return (⟨.wrapped span .asConst left.expr, some pos, some pos, false⟩, true)
    g.type s true
    let span ← spanFrom s pos
    let wrapper := if isAs then Wrapper.asType else .satisfies
    return (⟨.wrapped span wrapper left.expr, some pos, left.asTarget, false⟩, true)
  match ← operatorHere? s with
  | none => return (left, false)
  | some (op, length) =>
    if op.precedence ≤ bound then return (left, false)
    if op == .power then
      match left.expr with
      | .unary .. => unexpected
      | .other _ .awaitExpression => unexpected
      | _ => pure ()
    let here := (← get).current
    reread ⟨here.start,
      { here.token with stop := here.token.start + length }, here.start.skip length⟩
    advance
    let operand ← g.unary s
    let right ← g.operators s operand (if op == .power then op.precedence - 1 else op.precedence)
    reportAny (mixFault op left right)
    let span : Span := ⟨s.file, pos, right.expr.span.stop⟩
    return (.value (.binary span op left.expr right.expr), true)

/-- The rule of what follows an operand. -/
def operatorsRule (s : Setting) (left : Cover) (bound : Nat) : Parse Cover := do
  if left.isArrow then return left
  loop left (operatorStep g s bound)

/-! ### Assignments -/

/-- Whether an expression can be the target of an assignment at all. -/
def mayBeAssigned (c : Cover) : Bool :=
  match c.expr with
  | .conditional .. | .binary .. | .unary .. => false
  | _ => !c.isOther .updateExpression && !c.isArrow

/-- What starts with `yield`. -/
def yieldForm (s : Setting) : Parse Cover := do
  let pos ← start
  expectWord "yield"
  unless (← afterLine) || !((← startsExpression) || (← isSign "*")) do
    let _ ← eatSign "*"
    let _ ← g.assignment s
  otherFrom s pos .yieldExpression

/-- An operand at an opening angle bracket where elements are read: an element, or else an arrow
function with type parameters. -/
def elementOperand (s : Setting) : Parse Cover := do
  let pos ← start
  match ← attempt (g.element s) with
  | some _ => otherFrom s pos .expression >>= suffixes g s false
  | none =>
    match ← attempt (genericArrow g s) with
    | some arrow => return arrow
    | none => g.unary s

/-- An operand at an opening angle bracket where no elements are read. Names in angle brackets
before parentheses may be the type parameters of an arrow function or an asserted type. -/
def angledOperand (s : Setting) : Parse Cover := do
  let pos ← start
  let mayBeParams ← wouldParse do
    typeParameters g s
    unless ← isSign "(" do unexpected
  if mayBeParams then
    let mayBeType ← wouldParse do
      expectSign "<"
      g.type s true
      expectSign ">"
    typeParameters g s
    let c ← parentheses g { s with arrowAt := ← start } none
    if c.isArrow then return c.startingAt pos
    unless mayBeType do unexpected
    let inner ← suffixes g s false c >>= updated s
    return ⟨.wrapped (← spanFrom s pos) .typeAssertion inner.expr, some pos, inner.asTarget,
      false⟩
  else g.unary s

/-- The rule of an expression without commas. -/
def assignmentRule (outer : Setting) : Parse Cover := do
  let s := { outer with arrowAt := ← start }
  if s.inGenerator && (← isWord "yield") then return ← yieldForm g s
  let operand ←
    if ← isSign "<" then
      if s.elements then elementOperand g s else angledOperand g s
    else g.unary s
  let test ← g.operators s operand 0
  if test.isArrow then return test
  let c ←
    if ← eatSign "?" then branches g s test else pure test
  if mayBeAssigned c then assignmentRest g s c else return c

end Grammar

end StaticConfig
