import StaticConfig.Source.Parser.Expression

/-!
# Declarations

Variables are kept with their initializers; of functions, classes and the declarations of types only
the kind, the place and the name are.
-/

namespace StaticConfig

open Parse

namespace Grammar

variable (g : Grammar)

/-! ### Variables -/

/-- What must be given a value when it is declared. -/
inductive Initialized
  /-- Everything. -/
  | always
  /-- Only patterns. -/
  | patterns
  /-- Nothing, as in the head of a loop or in a description of what exists elsewhere. -/
  | never
deriving DecidableEq

/-- A variable with its type and its initializer. -/
def declarator (s : Setting) (initialized : Initialized) : Parse Declarator := do
  let pos ← start
  let pattern ← g.pattern s
  if !(← afterLine) then
    let _ ← eatSign "!"
  annotatedType g s
  let init ← if ← eatSign "=" then do pure (some (← g.assignment s).expr) else pure none
  let required :=
    match initialized with
    | .always => true
    | .patterns => pattern.name?.isNone
    | .never => false
  if init.isNone && required then report pos
  return .mk (← spanFrom s pos) pattern.name? init

/-- The variables after the word that declares them. Where the list breaks off, the fault is at the
end of that word, or else at the last comma. -/
def declarators (s : Setting) (initialized : Initialized) : Parse (List Declarator) := do
  let wordStop ← lastStop
  commaSeparated do
    if (← isSign ";") || (← atEnd) then
      if (← lastStop) == wordStop then stopAt wordStop else stopAt (← lastStart)
    declarator g s initialized

/-- Which variables of a statement need a value: all constants do, and patterns. -/
def requirement (s : Setting) (isConst : Bool) : Initialized :=
  if s.ambient then .never else if isConst then .always else .patterns

/-- A variable statement from the word that declares the variables on; its text starts at `pos`. -/
def variableStatement (s : Setting) (pos : Nat) : Parse Stmt := do
  let isConst ← isWord "const"
  advance
  let found ← declarators g s (requirement s isConst)
  semicolon
  return .declares (← spanFrom s pos) found

/-- Whether `let` declares variables here. -/
def declaresVariables (next : Token) : Bool :=
  match next.lexeme with
  | .name text => text != "in" && text != "instanceof" && text != "of"
  | .sign text => text == "[" || text == "\x7b"
  | _ => false

/-- Whether `using` declares a resource here: a name follows on the same line. -/
def atResource : Parse Bool := wouldParse do
  let _ ← eatWord "await"
  if ← afterLine then unexpected
  expectWord "using"
  if (← afterLine) || (← isWord "in") || (← isWord "of") then unexpected
  let _ ← name

/-- The declaration of a resource, which leaves the semicolon after it. -/
def resourceDeclaration (s : Setting) (initialized : Initialized) : Parse Stmt := do
  let pos ← start
  let _ ← eatWord "await"
  expectWord "using"
  let _ ← declarators g s initialized
  return .declaration (← spanFrom s pos) .declaration none

/-! ### Functions and classes -/

/-- The declaration of a function from the word `function` on; it may lack a body. -/
def functionDeclaration (s : Setting) (pos : Nat) (isAsync : Bool) : Parse Stmt := do
  expectWord "function"
  let isGenerator ← eatSign "*"
  let named ← boundName
  functionRest g { s with inFunction := true } isAsync isGenerator true
  return .declaration (← spanFrom s pos) .functionDeclaration (some named)

/-- The declaration of a class from the word `class` on. -/
def classDeclaration (s : Setting) (pos : Nat) : Parse Stmt := do
  let named ← classRest g s true
  return .declaration (← spanFrom s pos) .classDeclaration named

/-! ### Types, enumerations and namespaces -/

/-- A member of an enumeration. -/
def enumMember (s : Setting) : Parse Unit := do
  match ← lexeme with
  | .name _ | .string _ => advance
  | .sign "[" =>
    let _ ← computedKey g s
  | _ => unexpected
  defaultHere g s

/-- The declaration of an enumeration from the word `enum` on. -/
def enumDeclaration (s : Setting) (pos : Nat) : Parse Stmt := do
  expectWord "enum"
  let named ← boundName
  expectSign "\x7b"
  let _ ← commaList "\x7d" (enumMember g s.bracketed)
  return .declaration (← spanFrom s pos) .enumDeclaration (some named)

/-- The declaration of a type alias from the word `type` on. -/
def aliasDeclaration (s : Setting) (pos : Nat) : Parse Stmt := do
  expectWord "type"
  let _ ← name
  typeParametersHere g s
  expectSign "="
  g.type s true
  semicolon
  return .declaration (← spanFrom s pos) .typeAliasDeclaration none

/-- The declaration of an interface from the word `interface` on. -/
def interfaceDeclaration (s : Setting) (pos : Nat) : Parse Stmt := do
  expectWord "interface"
  let _ ← name
  typeParametersHere g s
  if ← eatWord "extends" then
    let _ ← commaSeparated do
      entityName
      typeArgumentsHere g s
  typeMembers g s
  return .declaration (← spanFrom s pos) .interfaceDeclaration none

/-- The items of a namespace, in braces. -/
def namespaceBody (s : Setting) : Parse Unit := do
  expectSign "\x7b"
  let _ ← untilSign "\x7d" (g.item s)

/-- The declaration of a namespace, or of a module that exists elsewhere, from its first word on;
`global` is its own name. -/
def namespaceDeclaration (s : Setting) (pos : Nat) : Parse Stmt := do
  let canBeQuoted ← isWord "module"
  unless ← isWord "global" do advance
  match ← lexeme with
  | .string _ =>
    unless canBeQuoted do unexpected
    advance
    if ← isSign "\x7b" then namespaceBody g s else semicolon
  | _ =>
    let _ ← qualifiedName
    namespaceBody g s
  return .declaration (← spanFrom s pos) .moduleDeclaration none
where
  /-- The name of a namespace, which may lie in others. -/
  qualifiedName : Parse Unit := do
    let _ ← name
    loop () fun _ => do
      if ← eatSign "." then
        let _ ← name
        return ((), true)
      else return ((), false)

/-! ### Declarations that start with a name -/

/-- Whether the next token is a name on the same line. -/
def namedNext (next : Token) : Bool :=
  match next.lexeme with
  | .name text => isNameWord text && !next.afterLine
  | _ => false

/-- Whether the current word and the next token start the declaration of a type or namespace. -/
def atTypeDeclaration : Parse Bool := do
  let next ← peek
  match ← lexeme with
  | .name "type" | .name "interface" | .name "namespace" => return namedNext next
  | .name "module" =>
    match next.lexeme with
    | .string _ => return !next.afterLine
    | _ => return namedNext next
  | .name "global" => return next.lexeme == .sign "\x7b" && !next.afterLine
  | .name "abstract" => return next.lexeme == .name "class" && !next.afterLine
  | .name "enum" => return true
  | .name "const" => return next.lexeme == .name "enum"
  | _ => return false

/-- The declaration of a type or namespace whose text starts at `pos`. -/
def typeDeclaration (s : Setting) (pos : Nat) : Parse Stmt := do
  match ← lexeme with
  | .name "type" => aliasDeclaration g s pos
  | .name "interface" => interfaceDeclaration g s pos
  | .name "abstract" =>
    advance
    classDeclaration g s pos
  | .name "enum" => enumDeclaration g s pos
  | .name "const" =>
    advance
    enumDeclaration g s pos
  | _ => namespaceDeclaration g s pos

/-- Whether `async` starts the declaration of a function. -/
def atAsyncFunction : Parse Bool := do
  let next ← peek
  return (← isWord "async") && next.lexeme == .name "function" && !next.afterLine

/-- Whether `declare` starts a declaration of what exists elsewhere. -/
def atDescription : Parse Bool := wouldParse do
  expectWord "declare"
  if ← afterLine then unexpected
  unless (← isAnyWord ["function", "class", "const", "let", "var"]) || (← atTypeDeclaration) ||
      (← atAsyncFunction) do
    unexpected

/-- A declaration after the word `declare`, where its text starts. -/
def description (s : Setting) (pos : Nat) : Parse Stmt := do
  let inner := { s with ambient := true }
  if ← atTypeDeclaration then return ← typeDeclaration g inner pos
  match ← lexeme with
  | .name "function" => functionDeclaration g inner pos false
  | .name "async" =>
    advance
    functionDeclaration g inner pos true
  | .name "class" => classDeclaration g inner pos
  | _ => variableStatement g inner pos

/-- A declaration other than one of resources, if one starts here. -/
def declaration? (s : Setting) : Parse (Option Stmt) := do
  let pos ← start
  if ← atTypeDeclaration then return some (← typeDeclaration g s pos)
  let next ← peek
  match ← lexeme with
  | .name "function" => return some (← functionDeclaration g s pos false)
  | .name "class" => return some (← classDeclaration g s pos)
  | .name "const" | .name "var" => return some (← variableStatement g s pos)
  | .name "let" =>
    if declaresVariables next then return some (← variableStatement g s pos) else return none
  | .name "async" =>
    if ← atAsyncFunction then
      advance
      return some (← functionDeclaration g s pos true)
    else return none
  | .name "declare" =>
    if ← atDescription then
      advance
      return some (← description g s pos)
    else return none
  | _ => return none

end Grammar

end StaticConfig
