import StaticConfig.Source.Parser.Declaration

/-!
# Statements

Blocks, returned values, expressions, switches and variables are kept in full, since function bodies
are made of them; every other statement is only named.
-/

namespace StaticConfig

open Parse

namespace Grammar

variable (g : Grammar)

/-- A statement that is only named. -/
def otherStatement (s : Setting) (pos : Nat) (kind : Kind) : Parse Stmt :=
  return .other (← spanFrom s pos) kind

/-- A statement in place of a block. -/
def body (s : Setting) : Parse Unit := do
  let _ ← g.statement s false

/-- An expression in parentheses. -/
def condition (s : Setting) : Parse Expr := do
  expectSign "("
  let test ← g.expression s
  expectSign ")"
  return test.expr

/-! ### Branches -/

/-- A conditional statement. -/
def ifStatement (s : Setting) (pos : Nat) : Parse Stmt := do
  advance
  let _ ← condition g s
  body g s
  if ← eatWord "else" then body g s
  otherStatement s pos .ifStatement

/-- The statements of a clause, up to the next clause or the end of the switch. -/
def clauseBody (s : Setting) : Parse (List Stmt) := do
  let statements ← loop [] fun statements => do
    if (← isAnyWord ["case", "default"]) || (← isSign "\x7d") then return (statements, false)
    else return ((← g.statement s true) :: statements, true)
  return statements.reverse

/-- The clauses of a switch up to its closing brace; at most one of them is the default. -/
def clauses (s : Setting) : Parse (List Clause) := do
  let (found, _) ← loop ([], false) fun (found, hasDefault) => do
    if ← eatSign "\x7d" then return ((found, hasDefault), false)
    else if ← eatWord "case" then
      let test ← g.expression s
      expectSign ":"
      return ((.mk (some test.expr) (← clauseBody g s) :: found, hasDefault), true)
    else
      if hasDefault && (← isWord "default") then report (← start)
      expectWord "default"
      expectSign ":"
      return ((.mk none (← clauseBody g s) :: found, true), true)
  return found.reverse

/-- A switch. -/
def switchStatement (s : Setting) (pos : Nat) : Parse Stmt := do
  advance
  let discriminant ← condition g s
  expectSign "\x7b"
  let found ← clauses g { s with inSwitch := true }
  return .switch (← spanFrom s pos) discriminant found

/-! ### Loops -/

/-- The head of a `for` loop after its opening parenthesis. -/
def forHead (s : Setting) : Parse Unit := do
  let inHead := { s with allowIn := false }
  let declares ←
    if ← isAnyWord ["const", "var"] then pure true
    else if ← isWord "let" then do pure (declaresVariables (← peek))
    else pure false
  let pos ← start
  let isOver ←
    if ← isSign ";" then pure false
    else if declares then do
      advance
      let found ← declarators g inHead .never
      overItems found.length
    else if ← atResource then do
      let _ ← resourceDeclaration g inHead .never
      overItems 1
    else do
      let target ← g.expression inHead
      let isOver ← overItems 1
      if isOver then reportAny target.asTarget
      pure isOver
  if isOver then
    if (← isWord "in") then
      advance
      let _ ← g.expression s
    else
      advance
      let _ ← g.assignment s
  else
    if (← isWord "in") || (← isWord "of") then stopAt pos
    expectSign ";"
    unless ← isSign ";" do
      let _ ← g.expression s
    expectSign ";"
    unless ← isSign ")" do
      let _ ← g.expression s
  expectSign ")"
where
  /-- Whether the loop goes over the items or keys of a value, which takes one variable. -/
  overItems (declared : Nat) : Parse Bool :=
    return (← isAnyWord ["in", "of"]) && declared == 1

/-- A `for` loop. -/
def forStatement (s : Setting) (pos : Nat) : Parse Stmt := do
  advance
  if (← isWord "await") then
    if s.inFunction && !s.inAsync then report (← start)
    advance
  expectSign "("
  forHead g s
  body g { s with inLoop := true }
  otherStatement s pos .forStatement

/-- A `while` loop. -/
def whileStatement (s : Setting) (pos : Nat) : Parse Stmt := do
  advance
  let _ ← condition g s
  body g { s with inLoop := true }
  otherStatement s pos .whileStatement

/-- A `do` loop; no line has to end after it. -/
def doStatement (s : Setting) (pos : Nat) : Parse Stmt := do
  advance
  body g { s with inLoop := true }
  expectWord "while"
  let _ ← condition g s
  let _ ← eatSign ";"
  otherStatement s pos .whileStatement

/-! ### Leaving a form -/

/-- A `break` or `continue`, which has to stand in a form that it can leave. -/
def jump (s : Setting) (pos : Nat) (kind : Kind) (allowed : Bool) : Parse Stmt := do
  advance
  let fits ←
    if (← isName) && !(← afterLine) then do pure (s.labels.contains (← name)) else pure allowed
  semicolon
  unless fits && (allowed || kind == .breakStatement) do report pos
  otherStatement s pos kind

/-- A `return` with the value, if there is one on the line. -/
def returnStatement (s : Setting) (pos : Nat) : Parse Stmt := do
  advance
  let value ←
    if (← isSign ";") || (← isSign "\x7d") || (← atEnd) || (← afterLine) then pure none
    else do pure (some (← g.expression s).expr)
  semicolon
  unless s.inFunction do report pos
  return .result (← spanFrom s pos) value

/-- A `throw`. -/
def throwStatement (s : Setting) (pos : Nat) : Parse Stmt := do
  advance
  if ← afterLine then unexpected
  let _ ← g.expression s
  semicolon
  otherStatement s pos .throwStatement

/-- A `try` with what handles its faults, or what is done in any case, or both. -/
def tryStatement (s : Setting) (pos : Nat) : Parse Stmt := do
  advance
  let _ ← block g s
  let mustFollow ← start
  let handles ← eatWord "catch"
  if handles then
    if ← eatSign "(" then
      let _ ← g.pattern s
      annotatedType g s
      expectSign ")"
    let _ ← block g s
  let finishes ← eatWord "finally"
  if finishes then
    let _ ← block g s
  unless handles || finishes do report mustFollow
  otherStatement s pos .tryStatement

/-- A `with` statement, which modules may not have. -/
def withStatement (s : Setting) (pos : Nat) : Parse Stmt := do
  report pos
  advance
  let _ ← condition g s
  body g s
  otherStatement s pos .statement

/-! ### All statements -/

/-- An expression as a statement, or a statement with a label. -/
def expressionStatement (s : Setting) (pos : Nat) : Parse Stmt := do
  let c ← g.expression s
  match c.expr with
  | .identifier label =>
    if ← eatSign ":" then
      if s.labels.contains label.name then report pos
      let _ ← g.statement { s with labels := label.name :: s.labels } true
      return ← otherStatement s pos .statement
    semicolon
  | _ => semicolon
  return .expression (← spanFrom s pos) c.expr

/-- What may only stand where declarations may. -/
def scopedWords : List String := ["const", "let", "class", "function"]

/-- The rule of a statement. -/
def statementRule (s : Setting) (declarations : Bool) : Parse Stmt := do
  let pos ← start
  match ← lexeme with
  | .sign "\x7b" =>
    let statements ← block g s
    return .block (← spanFrom s pos) statements
  | .sign ";" =>
    advance
    return .empty (← spanFrom s pos)
  | .name "if" => ifStatement g s pos
  | .name "switch" => switchStatement g s pos
  | .name "for" => forStatement g s pos
  | .name "while" => whileStatement g s pos
  | .name "do" => doStatement g s pos
  | .name "break" => jump s pos .breakStatement (s.inLoop || s.inSwitch)
  | .name "continue" => jump s pos .continueStatement s.inLoop
  | .name "return" => returnStatement g s pos
  | .name "throw" => throwStatement g s pos
  | .name "try" => tryStatement g s pos
  | .name "with" => withStatement g s pos
  | .name "debugger" =>
    advance
    semicolon
    otherStatement s pos .statement
  | .name "import" =>
    match (← peek).lexeme with
    | .sign "(" | .sign "." => expressionStatement g s pos
    | _ => unexpected
  | lexeme =>
    if ← atResource then return ← resourceDeclaration g s .always
    match ← declaration? g s with
    | some declaration =>
      if !declarations && scopedWords.any (lexeme == .name ·) then report pos
      return declaration
    | none => expressionStatement g s pos

end Grammar

end StaticConfig
