import StaticConfig.Source.Parser.Operand

/-!
# Accesses and calls

What is appended to an operand: members, arguments, templates and assertions, and the targets of
`new`. Everything that is appended to an optional chain belongs to it.
-/

namespace StaticConfig

open Parse

namespace Grammar

variable (g : Grammar)

/-! ### Accesses and calls -/

/-- The wrapped or chained form of an access or call. -/
def chainOr (isChain : Bool) (c : Cover) : Cover :=
  if isChain then { Cover.value (.other c.expr.span .optionalChain) with isChain := true } else c

/-- A name or hidden name after a point. -/
def memberKey (s : Setting) : Parse AccessKey := do
  let pos ← start
  match ← lexeme with
  | .name text => advance; return .name text
  | .hidden _ => advance; return .hidden (← spanFrom s pos)
  | _ => unexpected

/-- The member under a computed key. -/
def computedMember (s : Setting) (pos : Nat) (target : Expr) : Parse Cover := do
  expectSign "["
  let key ← g.expression s.bracketed
  expectSign "]"
  return .place (.access (← spanFrom s pos) target (.computed key.expr))

/-- Whether the current token can start an expression. -/
def startsExpression : Parse Bool := do
  match ← lexeme with
  | .string _ | .number _ | .bigInt | .regex | .hidden _ => return true
  | .name text =>
    return isNameWord text || ["this", "super", "null", "true", "false", "function", "class", "new",
      "typeof", "void", "delete", "await", "yield", "import"].contains text
  | .sign text =>
    return ["(", "[", "\x7b", "+", "-", "~", "!", "++", "--", "/", "/=", "\x60", "<", "@"].contains text
  | _ => return false

/-- Whether the current token is an operator between operands. -/
def isOperator : Parse Bool := do
  match ← lexeme with
  | .name text => return ["in", "instanceof", "as", "satisfies"].contains text
  | .sign text =>
    return (BinaryOp.ofText? text).isSome || ["?", "=", "+=", "-=", "*=", "/="].contains text
  | _ => return false

/-- Type arguments that no call follows, after which no operand may start. -/
def loneTypeArguments (s : Setting) : Parse Unit := do
  typeArguments g s
  if ← isAnySign ["(", "\x60", "<", ">", "+", "-"] then unexpected
  unless (← afterLine) || (← isOperator) || !(← startsExpression) do unexpected

/-- One access, call, template or assertion appended to an expression; `none` if there is none. -/
def suffix (s : Setting) (noCall : Bool) (c : Cover) : Parse (Option Cover) := do
  let pos := c.start
  if (← isSign "!") && !(← afterLine) then
    advance
    let span ← spanFrom s pos
    return some ⟨.wrapped span .nonNull c.expr, some pos, c.asTarget, c.isChain⟩
  if ← isSign "<" then
    let generic ← attempt do
      typeArguments g s
      if !noCall && (← isSign "(") then
        let arguments ← callArguments g s
        let span ← spanFrom s pos
        return chainOr c.isChain (.value (.call span (.value c.expr) arguments))
      else if ← isSign "\x60" then
        taggedTemplate g s
        otherFrom s pos .taggedTemplate
      else unexpected
    if generic.isSome then return generic
    let lone ← attempt (loneTypeArguments g s)
    if lone.isSome then return some (← otherFrom s pos .expression)
    return none
  if (← isSign "?.") then
    if noCall && (← peek).lexeme == .sign "(" then unexpected
    advance
    if ← isSign "(" then
      let _ ← callArguments g s
    else if ← isSign "[" then
      let _ ← computedMember g s pos c.expr
    else if ← isSign "<" then
      typeArguments g s
      let _ ← callArguments g s
    else
      if ← isSign "\x60" then unexpected
      let _ ← memberKey s
    return some (chainOr true (← otherFrom s pos .optionalChain))
  if ← isSign "[" then return some (chainOr c.isChain (← computedMember g s pos c.expr))
  if !noCall && (← isSign "(") then
    let arguments ← callArguments g s
    let span ← spanFrom s pos
    return some (chainOr c.isChain (.value (.call span (.value c.expr) arguments)))
  if ← eatSign "." then
    let key ← memberKey s
    let span ← spanFrom s pos
    return some (chainOr c.isChain (.place (.access span c.expr key)))
  if ← isSign "\x60" then
    if c.isChain then unexpected
    taggedTemplate g s
    return some (← otherFrom s pos .taggedTemplate)
  return none

/-- Everything appended to an expression. -/
def suffixes (s : Setting) (noCall : Bool) (first : Cover) : Parse Cover := do
  if first.isArrow then return first
  loop first fun c => do
    match ← suffix g s noCall c with
    | some next => return (next, true)
    | none => return (c, false)

/-- What starts with `super`: a member of it, or a call. -/
def superForm (s : Setting) (noCall : Bool) : Parse Cover := do
  let pos ← start
  expectWord "super"
  if !noCall && (← isSign "(") then
    let arguments ← callArguments g s
    return .value (.call (← spanFrom s pos) .super arguments)
  if ← eatSign "." then
    let _ ← memberKey s
  else if ← eatSign "[" then
    let _ ← g.expression s.bracketed
    expectSign "]"
  else stopAt pos
  return .place (.other (← spanFrom s pos) .superPropertyAccess)

/-- What starts with `import`: the description of the module, or a call. -/
def importForm (s : Setting) (noCall : Bool) : Parse Cover := do
  let pos ← start
  expectWord "import"
  if ← eatSign "." then
    expectWord "meta"
    otherFrom s pos .expression
  else if noCall then stopAt pos
  else
    let arguments ← callArguments g s
    if arguments.isEmpty then stopAt ((← lastStop) - 1)
    return .value (.call (← spanFrom s pos) .module arguments)

/-- The rule of a target of `new`: accesses, but no calls without a `new` of their own. -/
def newTargetRule (s : Setting) : Parse Cover := do
  let pos ← start
  if ← isWord "new" then
    advance
    if ← eatSign "." then
      expectWord "target"
      unless s.inFunction do report pos
      return ← otherFrom s pos .expression >>= suffixes g s true
    let target ← g.newTarget s
    if target.isChain then report target.start
    let generic ← attempt do
      typeArguments g s
      unless ← isSign "(" do unexpected
    if generic.isNone && (← isSign "<") then
      let _ ← attempt (loneTypeArguments g s)
    if ← isSign "(" then
      let _ ← callArguments g s
      otherFrom s pos .newExpression >>= suffixes g s true
    else otherFrom s pos .newExpression
  else if ← isWord "super" then superForm g s true >>= suffixes g s true
  else if ← isWord "import" then importForm g s true >>= suffixes g s true
  else primary g s >>= suffixes g s true

/-- An expression with everything that is appended to it. -/
def postfixed (s : Setting) : Parse Cover := do
  if s.elements && (← isSign "<") then
    let pos ← start
    g.element s
    return ← otherFrom s pos .expression >>= suffixes g s false
  if ← isWord "new" then g.newTarget s >>= suffixes g s false
  else if ← isWord "super" then superForm g s false >>= suffixes g s false
  else if ← isWord "import" then importForm g s false >>= suffixes g s false
  else primary g s >>= suffixes g s false

end Grammar

end StaticConfig
