import StaticConfig.Source.Parser.Type

/-!
# Patterns, parameters and bodies

What a variable or a parameter may bind, the parameters of functions, and their bodies.
-/

namespace StaticConfig

open Parse

namespace Grammar

variable (g : Grammar)

/-- A default after an equals sign, if there is one. -/
def defaultHere (s : Setting) : Parse Unit := do
  if ← eatSign "=" then
    let _ ← g.assignment s.bracketed

/-- The key of a property: in brackets, or written out. -/
def computedKey (s : Setting) : Parse Expr := do
  expectSign "["
  let key ← g.expression s.bracketed
  expectSign "]"
  return key.expr

/-- A property of an object pattern. -/
def patternProperty (s : Setting) : Parse Unit := do
  if ← eatSign "..." then
    let _ ← boundName
    unless ← isSign "\x7d" do unexpected
  else
    let pos ← start
    let isPlain ← isName
    let short ←
      match ← lexeme with
      | .name _ => advance; pure true
      | .string _ | .number _ | .bigInt => advance; pure false
      | .sign "[" => let _ ← computedKey g s; pure false
      | _ => unexpected
    if ← eatSign ":" then
      let _ ← g.pattern s
    else if short then
      unless isPlain do stopAt pos
    else unexpected
    defaultHere g s

/-- An item of an array pattern, or a hole. -/
def patternItem (s : Setting) : Parse Unit := do
  if ← isSign "," then return
  if ← eatSign "..." then
    let _ ← g.pattern s
    unless ← isSign "]" do unexpected
  else
    let _ ← g.pattern s
    defaultHere g s

/-- The rule of a binding pattern. -/
def patternRule (s : Setting) : Parse Pattern := do
  let pos ← start
  if ← eatSign "\x7b" then
    let _ ← commaList "\x7d" (patternProperty g s.bracketed)
    return ⟨← spanFrom s pos, none, .objectBindingPattern⟩
  else if ← eatSign "[" then
    let _ ← commaList "]" (patternItem g s.bracketed)
    return ⟨← spanFrom s pos, none, .arrayBindingPattern⟩
  else
    let name ← boundName
    return ⟨← spanFrom s pos, some name, .parameter⟩

/-- Words that may stand before a parameter of a constructor. -/
def parameterModifiers : List String :=
  ["public", "private", "protected", "readonly", "override"]

/-- Passes modifiers that are followed by the name or pattern they modify. -/
def skipParameterModifiers : Parse Unit :=
  loop () fun _ => do
    if ← isAnyWord parameterModifiers then
      match (← peek).lexeme with
      | .name _ | .sign "\x7b" | .sign "[" => advance; return ((), true)
      | _ => return ((), false)
    else return ((), false)

/-- A parameter of a function. -/
def parameter (s : Setting) : Parse Unit := do
  skipParameterModifiers
  let rest ← eatSign "..."
  if ← isWord "this" then advance
  else
    let _ ← g.pattern s
  let _ ← eatSign "?"
  annotatedType g s
  defaultHere g s
  if rest && !(← isSign ")") then unexpected

/-- The parameters of a function. -/
def parameters (s : Setting) : Parse Unit := do
  expectSign "("
  let _ ← commaList ")" (parameter g s.bracketed)

/-- Statements in braces. -/
def block (s : Setting) : Parse (List Stmt) := do
  expectSign "\x7b"
  untilSign "\x7d" (g.statement s true)

/-- The body of a function. -/
def functionBody (s : Setting) (isAsync isGenerator : Bool) : Parse (List Stmt) :=
  block g (s.function isAsync isGenerator)

/-- Type parameters, parameters, return type and body of a function. A declaration may have no
body; then a semicolon ends it. -/
def functionRest (s : Setting) (isAsync isGenerator mayLackBody : Bool) : Parse Unit := do
  typeParametersHere g s
  parameters g { s.function isAsync isGenerator with inFunction := s.inFunction }
  returnTypeHere g s
  if mayLackBody && !(← isSign "\x7b") then semicolon
  else
    let _ ← functionBody g s isAsync isGenerator

end Grammar

end StaticConfig
