import StaticConfig.Source.Parser.Literal

/-!
# Operands

Arrow functions and what else stands in parentheses, functions and names, and with them every
expression that nothing is appended to yet. Whether parentheses hold the parameters of an arrow
function shows only after they are closed, so their items are kept as covers until then.
-/

namespace StaticConfig

open Parse

namespace Grammar

variable (g : Grammar)

/-! ### Arrow functions and parentheses -/

/-- The body of an arrow function: an expression, or statements in braces. -/
def arrowBody (s : Setting) (isAsync : Bool) : Parse ArrowBody := do
  if ← isSign "\x7b" then return .block (← functionBody g s isAsync false)
  else
    let inner := { s.function isAsync false with allowIn := s.allowIn, colonAhead := s.colonAhead }
    return .value (← g.assignment inner).expr

/-- An arrow function from its arrow on. -/
def arrowFrom (s : Setting) (pos : Nat) (isAsync : Bool) (params : List Param) : Parse Cover := do
  if ← afterLine then unexpected
  expectSign "=>"
  let body ← arrowBody g s isAsync
  return .value (.arrow (← spanFrom s pos) isAsync params body)

/-- What stands between commas in parentheses: an expression, or surely a parameter. -/
inductive Parenthesized
  | expr (cover : Cover) (isSpread : Bool)
  | param (param : Param) (pos : Nat) (fault : Option Nat)

namespace Parenthesized

/-- The parameter that it is. -/
def toParam : Parenthesized → Param
  | .expr c true => .pattern c.expr.span .restParameter
  | .expr c false => c.param
  | .param p _ _ => p

/-- What is at fault if it is a parameter. -/
def paramFault : Parenthesized → Option Nat
  | .expr c _ => c.asBinding
  | .param _ _ fault => fault

/-- Whether it takes all arguments that are left. -/
def isRest : Parenthesized → Bool
  | .expr _ isSpread => isSpread
  | .param (.pattern _ .restParameter) _ _ => true
  | .param .. => false

/-- Where it starts. -/
def start : Parenthesized → Nat
  | .expr c _ => c.start
  | .param _ pos _ => pos

/-- Whether it can only be a parameter. -/
def isParam : Parenthesized → Bool
  | .expr .. => false
  | .param .. => true

end Parenthesized

/-- Parameters of an arrow function; a rest must come last. -/
def paramsOf : List Parenthesized → Parse (List Param)
  | [] => return []
  | item :: rest => do
    reportAny item.paramFault
    if item.isRest && !rest.isEmpty then report item.start
    return item.toParam :: (← paramsOf rest)

/-- The rest of a conditional expression after its question mark. -/
def branches (s : Setting) (test : Cover) : Parse Cover := do
  let yes ← g.assignment { s with allowIn := true, colonAhead := true }
  expectSign ":"
  let no ← g.assignment { s with colonAhead := false }
  let span : Span := ⟨s.file, test.start, no.expr.span.stop⟩
  return .value (.conditional span test.expr yes.expr no.expr)

/-- An assignment after its target, if an operator for it follows. -/
def assignmentRest (s : Setting) (target : Cover) : Parse Cover := do
  match ← assignmentOperator with
  | none => return target
  | some text =>
    let compound := text != "="
    let destructures :=
      match target.expr with
      | .array .. | .object .. => true
      | _ => false
    if compound && destructures then report target.start else reportAny target.asTarget
    let value ← g.assignment s
    let span : Span := ⟨s.file, target.start, value.expr.span.stop⟩
    let fault := if compound then some target.start else none
    return ⟨.other span .assignmentExpression, earliest fault target.asBinding,
      earliest fault target.asTarget, false⟩
where
  /-- Passes an assignment operator. -/
  assignmentOperator : Parse (Option String) := do
    match ← lexeme with
    | .sign ">" =>
      let c := (← get).current
      match ([">>>=", ">>="].find? fun op => op.toList.isPrefixOf c.start.rest) with
      | some op =>
        reread ⟨c.start, ⟨.sign op, c.token.start, c.token.start + op.length, c.token.afterLine⟩,
          c.start.skip op.length⟩
        advance
        return some op
      | none => return none
    | .sign text =>
      if ["=", "+=", "-=", "*=", "/=", "%=", "**=", "<<=", "&=", "|=", "^=", "&&=", "||=",
          "??="].contains text then
        advance
        return some text
      else return none
    | _ => return none

/-- A type and a default after a parameter in parentheses. -/
def annotatedParam (s : Setting) (pos : Nat) (c : Cover) (isSpread : Bool) :
    Parse Parenthesized := do
  annotatedType g s
  let bound ← spanFrom s pos
  if ← eatSign "=" then
    let _ ← g.assignment s
    return .param (.pattern (← spanFrom s pos) .defaultParameter) pos c.asBinding
  let param :=
    if isSpread then Param.pattern bound .restParameter
    else match c.param with
      | .name name => .name name
      | .pattern _ kind => .pattern bound kind
  return .param param pos c.asBinding

/-- What stands between commas in parentheses. -/
def parenthesized (s : Setting) : Parse Parenthesized := do
  reportAny (← idleModifiers)
  let pos ← start
  let isSpread ← eatSign "..."
  let c ←
    if ← isName then do
      -- A question mark after a name may belong to an optional parameter.
      let inner := { s with arrowAt := pos }
      let first ← g.unary inner
      if first.isArrow then pure first
      else
        let first ← g.operators inner first 0
        if first.isArrow then pure first else assignmentRest g s first
    else g.assignment s
  if c.isArrow then return .expr c isSpread
  if ← isSign "?" then
    match (← peek).lexeme with
    | .sign "," | .sign ":" | .sign ")" | .sign "=" =>
      advance
      match c.expr with
      | .identifier _ => return ← annotatedParam g s pos c isSpread
      | _ => stopAt c.start
    | _ =>
      if isSpread then unexpected
      advance
      return .expr (← branches g s c) false
  if ← isSign ":" then annotatedParam g s pos c isSpread
  else return .expr c isSpread

/-- An arrow function whose return type is followed by a colon that belongs to a conditional
expression around. -/
def arrowBeforeColon (s : Setting) (pos : Nat) (isAsync : Bool) (items : List Parenthesized) :
    Parse Cover := do
  expectSign ":"
  returnType g s
  unless ← isSign "=>" do unexpected
  let params ← paramsOf items
  let arrow ← arrowFrom g s pos isAsync params
  unless ← isSign ":" do unexpected
  return arrow

/-- Values in parentheses that are no parameters. -/
def parenthesizedValues : List Parenthesized → Parse (List (Cover × Bool))
  | [] => return []
  | .expr c isSpread :: rest => do
    return (c, isSpread) :: (← parenthesizedValues rest)
  | .param _ pos _ :: _ => stopAt pos

/-- Parentheses: the parameters of an arrow function, a parenthesized expression, or after the
name `async`, which starts at `asyncAt`, the arguments of a call. -/
def parentheses (s : Setting) (asyncAt : Option Nat) : Parse Cover := do
  let pos := asyncAt.getD (← start)
  let isAsync := asyncAt.isSome
  let canBeArrow := pos == s.arrowAt
  expectSign "("
  let inner := s.bracketed
  let (items, comma) ← loop ([], none) fun (items, _) => do
    if ← isSign ")" then return ((items, none), false)
    let item ← parenthesized g inner
    if ← isSign ")" then return ((item :: items, none), false)
    let commaAt ← start
    expectSign ","
    if ← isSign ")" then return ((item :: items, some commaAt), false)
    return ((item :: items, none), true)
  let items := items.reverse
  expectSign ")"
  if s.colonAhead && (← isSign ":") then
    if let some arrow ← attempt (arrowBeforeColon g s pos isAsync items) then return arrow
  let returns ←
    if !s.colonAhead && (← isSign ":") then attempt do
      expectSign ":"
      returnType g s
      unless ← isSign "=>" do unexpected
    else pure none
  if items.any Parenthesized.isParam || returns.isSome || (← isSign "=>") then
    if ← afterLine then unexpected
    unless canBeArrow do stopAt pos
    unless ← isSign "=>" do unexpected
    let params ← paramsOf items
    return ← arrowFrom g s pos isAsync params
  let values ← parenthesizedValues items
  if let some asyncAt := asyncAt then
    let callee : Expr := .identifier ⟨"async", ⟨s.file, asyncAt, asyncAt + 5⟩⟩
    return .value (.call (← spanFrom s pos) (.value callee) (values.map argumentOf))
  if let some (c, _) := values.find? (·.2) then stopAt c.start
  if comma.isSome then stopAt ((← lastStop) - 1)
  let span ← spanFrom s pos
  match values with
  | [] => stopAt pos
  | [(c, _)] =>
    let target :=
      match c.expr with
      | .array .. | .object .. => some pos
      | _ => if c.asTarget.isSome then some pos else none
    return ⟨.wrapped span .parentheses c.expr, some pos, target, false⟩
  | (first, _) :: rest =>
    let stop := (rest.getLast?.map (·.1.expr.span.stop)).getD first.expr.span.stop
    let sequence : Expr := .other ⟨s.file, first.start, stop⟩ .commaExpression
    return .value (.wrapped span .parentheses sequence)

/-- An arrow function with type parameters. -/
def genericArrow (s : Setting) : Parse Cover := do
  let pos ← start
  typeParameters g s
  unless ← isSign "(" do unexpected
  let arrow ← parentheses g { s with arrowAt := ← start } none
  unless arrow.isArrow do unexpected
  return arrow.startingAt pos

/-! ### Functions and names -/

/-- A function expression from the word `function` on. -/
def functionExpression (s : Setting) (pos : Nat) (isAsync : Bool) : Parse Cover := do
  expectWord "function"
  let isGenerator ← eatSign "*"
  if ← isName then
    let _ ← boundName
  functionRest g s isAsync isGenerator false
  otherFrom s pos .functionExpression

/-- A name, or the arrow function of one parameter that starts with it. -/
def nameOrArrow (s : Setting) : Parse Cover := do
  let pos ← start
  let canBeArrow := pos == s.arrowAt
  let text ← name
  let span ← spanFrom s pos
  if canBeArrow && (← isSign "=>") && !(← afterLine) then
    if text == "eval" || text == "arguments" then report pos
    arrowFrom g s pos false [.name text]
  else
    let fault := if text == "eval" || text == "arguments" then some pos else none
    return ⟨.identifier ⟨text, span⟩, fault, fault, false⟩

/-- What starts with the name `async`, if it is more than a name. -/
def asyncForm? (s : Setting) : Parse (Option Cover) := do
  let pos ← start
  let canBeArrow := pos == s.arrowAt
  let next ← peek
  if next.afterLine then return none
  match next.lexeme with
  | .name "function" =>
    advance
    return some (← functionExpression g s pos true)
  | .name text =>
    let isArrow ← wouldParse do
      advance
      let _ ← name
      unless ← isSign "=>" do unexpected
    if canBeArrow && isNameWord text && isArrow then
      advance
      let param ← boundName
      return some (← arrowFrom g s pos true [.name param])
    else return none
  | .sign "(" =>
    if canBeArrow then
      advance
      return some (← parentheses g s (some pos))
    else return none
  | .sign "<" =>
    if canBeArrow then
      attempt do
        advance
        typeParameters g s
        let c ← parentheses g s (some pos)
        unless c.isArrow do unexpected
        return c
    else return none
  | _ => return none

/-! ### Primary expressions -/

/-- An expression that nothing is appended to yet. -/
def primary (s : Setting) : Parse Cover := do
  let pos ← start
  match ← lexeme with
  | .string value => advance; return .value (.string (← spanFrom s pos) value)
  | .number value => advance; return .value (.number (← spanFrom s pos) value)
  | .bigInt => advance; otherFrom s pos .bigIntLiteral
  | .hidden _ =>
    advance
    unless (← isWord "in") && s.allowIn do unexpected
    otherFrom s pos .expression
  | .name "null" => advance; return .value (.null (← spanFrom s pos))
  | .name "true" => advance; return .value (.bool (← spanFrom s pos) true)
  | .name "false" => advance; return .value (.bool (← spanFrom s pos) false)
  | .name "this" => advance; otherFrom s pos .thisExpression
  | .name "function" => functionExpression g s pos false
  | .name "class" =>
    let _ ← classRest g s false
    otherFrom s pos .classExpression
  | .name "async" =>
    match ← asyncForm? g s with
    | some form => return form
    | none => nameOrArrow g s
  | .name _ => nameOrArrow g s
  | .sign "[" => array g s
  | .sign "\x7b" => object g s
  | .sign "(" => parentheses g s none
  | .sign "\x60" => template g s
  | .sign "/" | .sign "/=" =>
    reread (Lexer.readRegex (← get).current)
    match ← lexeme with
    | .regex => advance; otherFrom s pos .regularExpressionLiteral
    | _ => unexpected
  | _ => unexpected

end Grammar

end StaticConfig
