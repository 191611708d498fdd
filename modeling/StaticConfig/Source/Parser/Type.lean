import StaticConfig.Source.Parser.Grammar

/-!
# Types

Types are parsed only to find where they end, so the parsers of this module give nothing.
-/

namespace StaticConfig

open Parse

namespace Grammar

variable (g : Grammar)

/-! ### Names, parameters and arguments of types -/

/-- A name with members, as types refer to it. -/
def entityName : Parse Unit := do
  let _ ← word
  loop () fun _ => do
    if ← eatSign "." then
      let _ ← word
      return ((), true)
    else return ((), false)

/-- The arguments of a generic type, at least one. -/
def typeArguments (s : Setting) : Parse Unit := do
  expectSign "<"
  if ← isSign ">" then unexpected
  let _ ← commaList ">" (g.type s true)

/-- The arguments of a generic type, if they follow on the same line. -/
def typeArgumentsHere (s : Setting) : Parse Unit := do
  if (← isSign "<") && !(← afterLine) then typeArguments g s

/-- The parameters of a generic declaration. -/
def typeParameters (s : Setting) : Parse Unit := do
  expectSign "<"
  if ← isSign ">" then unexpected
  let _ ← commaList ">" do
    loop () fun _ => do
      if ← isAnyWord ["const", "in", "out"] then
        match (← peek).lexeme with
        | .name _ => advance; return ((), true)
        | _ => return ((), false)
      else return ((), false)
    let _ ← name
    if ← eatWord "extends" then g.type s true
    if ← eatSign "=" then g.type s true

/-- The parameters of a generic declaration, if it has any. -/
def typeParametersHere (s : Setting) : Parse Unit := do
  if ← isSign "<" then typeParameters g s

/-- A type after a colon, if there is one. -/
def annotatedType (s : Setting) : Parse Unit := do
  if ← eatSign ":" then g.type s true

/-- The type that a function returns, or what it asserts about an argument. -/
def returnType (s : Setting) : Parse Unit := do
  if (← isWord "asserts") then
    let isAssertion ← wouldParse do
      advance
      if (← afterLine) || !((← isName) || (← isWord "this")) then unexpected
    if isAssertion then
      advance
      advance
      if (← isWord "is") && !(← afterLine) then
        advance
        g.type s true
      return
  if (← isName) || (← isWord "this") then
    let next ← peek
    if next.lexeme == .name "is" && !next.afterLine then
      advance
      advance
      g.type s true
      return
  g.type s true

/-- A return type after a colon, if there is one. -/
def returnTypeHere (s : Setting) : Parse Unit := do
  if ← eatSign ":" then returnType g s

/-! ### Members -/

/-- A parameter in the type of a function. -/
def typeParameter (s : Setting) : Parse Unit := do
  let _ ← eatSign "..."
  if ← isWord "this" then advance
  else
    let _ ← g.pattern s
  let _ ← eatSign "?"
  annotatedType g s

/-- The parameters of a signature. -/
def typeParameterList (s : Setting) : Parse Unit := do
  expectSign "("
  let _ ← commaList ")" (typeParameter g s)

/-- What follows the name in a signature. -/
def signature (s : Setting) : Parse Unit := do
  typeParametersHere g s
  typeParameterList g s
  returnTypeHere g s

/-- The name of a member of a type. -/
def memberName (s : Setting) : Parse Unit := do
  match ← lexeme with
  | .name _ | .string _ | .number _ | .bigInt | .hidden _ => advance
  | .sign "[" =>
    advance
    let _ ← g.expression s.bracketed
    expectSign "]"
  | _ => unexpected

/-- Whether an index signature starts here: a bracket, a name and a colon. -/
def atIndexSignature : Parse Bool := wouldParse do
  expectSign "["
  let _ ← name
  expectSign ":"

/-- An index signature. -/
def indexSignature (s : Setting) : Parse Unit := do
  expectSign "["
  let _ ← name
  expectSign ":"
  g.type s true
  expectSign "]"
  annotatedType g s

/-- Whether a word is a modifier here, that is, whether a member name follows on the line. -/
def isModifier (text : String) : Parse Bool := do
  if ← isWord text then
    let next ← peek
    match next.lexeme with
    | .name _ | .string _ | .number _ | .bigInt | .hidden _ => return !next.afterLine
    | .sign "[" => return !next.afterLine
    | _ => return false
  else return false

/-- The end of a member of a type. -/
def memberEnd : Parse Unit := do
  unless ← eatSign "," do semicolon

/-- A member of a type literal or interface. -/
def typeMember (s : Setting) : Parse Unit := do
  if (← isSign "(") || (← isSign "<") then
    signature g s
    memberEnd
    return
  if ← isWord "new" then
    match (← peek).lexeme with
    | .sign "(" | .sign "<" =>
      advance
      signature g s
      memberEnd
      return
    | _ => pure ()
  if ← isModifier "readonly" then advance
  if ← atIndexSignature then
    indexSignature g s
    memberEnd
    return
  if (← isModifier "get") || (← isModifier "set") then advance
  memberName g s
  let _ ← eatSign "?"
  if (← isSign "(") || (← isSign "<") then signature g s else annotatedType g s
  memberEnd

/-- The members of a type literal or interface, in braces. -/
def typeMembers (s : Setting) : Parse Unit := do
  expectSign "\x7b"
  let _ ← untilSign "\x7d" (typeMember g s.bracketed)

/-! ### Forms of types -/

/-- A sign that adds or removes a modifier in a mapped type. -/
def mappedModifier (modifier : Parse Bool) : Parse Unit := do
  if (← isSign "+") || (← isSign "-") then
    advance
    unless ← modifier do unexpected
  else
    let _ ← modifier

/-- Whether a mapped type starts here. -/
def atMappedType : Parse Bool := wouldParse do
  expectSign "\x7b"
  if ← isAnySign ["+", "-"] then
    advance
    expectWord "readonly"
  else
    if (← isWord "readonly") && (← peek).lexeme == .sign "[" then advance
    expectSign "["
    let _ ← name
    expectWord "in"

/-- A mapped type. -/
def mappedType (s : Setting) : Parse Unit := do
  expectSign "\x7b"
  mappedModifier (eatWord "readonly")
  expectSign "["
  let _ ← name
  expectWord "in"
  g.type s true
  if ← eatWord "as" then g.type s true
  expectSign "]"
  mappedModifier (eatSign "?")
  annotatedType g s
  let _ ← eatSemicolon
  expectSign "\x7d"

/-- An item of a tuple type. -/
def tupleItem (s : Setting) : Parse Unit := do
  let _ ← eatSign "..."
  let labelled ← wouldParse do
    let _ ← word
    let _ ← eatSign "?"
    expectSign ":"
  if labelled then
    advance
    let _ ← eatSign "?"
    expectSign ":"
  g.type s true
  let _ ← eatSign "?"

/-- The pieces of a template after its opening quote, with `part` between the braces. The result
holds the texts and parts, and the first bad escape. -/
def templatePieces {α : Type} (part : Parse α) :
    Parse (List Char × List (α × List Char) × Option Nat) := do
  let opening ← start
  let piece : Parse Lexer.Piece := do
    match Lexer.readPiece (← get).current.after with
    | some piece => return piece
    | none => stopAt opening
  let first ← piece
  let (parts, last, bad) ← loop ([], first, first.badEscape) fun (parts, last, bad) => do
    if last.closes then return ((parts, last, bad), false)
    else
      reread (Lexer.readToken last.after)
      let value ← part
      unless ← isSign "\x7d" do unexpected
      let next ← piece
      return (((value, next.text) :: parts, next, bad.or next.badEscape), true)
  -- The closing quote ends the token before whatever comes next.
  modify ({ · with lastStop := last.after.pos })
  reread (Lexer.readToken last.after)
  return (first.text, parts.reverse, bad)

/-- Whether a parenthesis starts the parameters of a function type. -/
def atFunctionType (s : Setting) : Parse Bool := wouldParse do
  expectSign "("
  if (← isSign ")") || (← isSign "...") then return
  if ← isWord "this" then advance
  else
    let _ ← g.pattern s
  if ← isAnySign [":", ",", "?", "="] then return
  expectSign ")"
  expectSign "=>"

/-- A type without operators. -/
def primaryType (s : Setting) : Parse Unit := do
  match ← lexeme with
  | .string _ | .number _ | .bigInt => advance
  | .sign "-" =>
    advance
    match ← lexeme with
    | .number _ | .bigInt => advance
    | _ => unexpected
  | .sign "\x60" =>
    let (_, _, bad) ← templatePieces (g.type s.bracketed true)
    reportAny bad
  | .sign "\x7b" =>
    if ← atMappedType then mappedType g s.bracketed else typeMembers g s
  | .sign "[" =>
    advance
    let _ ← commaList "]" (tupleItem g s.bracketed)
  | .sign "(" =>
    advance
    g.type s.bracketed true
    expectSign ")"
  | .name "void" | .name "null" | .name "this" | .name "true" | .name "false" => advance
  | .name "typeof" =>
    advance
    if ← isWord "import" then importType
    else entityName
    typeArgumentsHere g s
  | .name "import" =>
    importType
    typeArgumentsHere g s
  | .name text =>
    if isNameWord text then
      entityName
      typeArgumentsHere g s
    else unexpected
  | _ => unexpected
where
  /-- A type from another module. -/
  importType : Parse Unit := do
    expectWord "import"
    expectSign "("
    g.type s.bracketed true
    if ← eatSign "," then
      let _ ← g.assignment s.bracketed
      let _ ← eatSign ","
    expectSign ")"
    if ← eatSign "." then entityName

/-- A type with the brackets after it. -/
def arrayType (s : Setting) : Parse Unit := do
  primaryType g s
  loop () fun _ => do
    if (← isSign "[") && !(← afterLine) then
      advance
      unless ← eatSign "]" do
        g.type s.bracketed true
        expectSign "]"
      return ((), true)
    else return ((), false)

/-- A type with the operators before it. -/
def operatorType (s : Setting) (conditional : Bool) : Parse Unit := do
  let isInfer ← loop false fun _ => do
    if ← isAnyWord ["keyof", "unique", "readonly"] then
      let next ← peek
      let operand :=
        match next.lexeme with
        | .name text => isNameWord text || typeWords.contains text
        | .sign text => ["\x7b", "[", "(", "-", "\x60"].contains text
        | .string _ | .number _ | .bigInt => true
        | _ => false
      if operand then advance; return (false, true) else return (false, false)
    else if (← isWord "infer") then
      match (← peek).lexeme with
      | .name text => if isNameWord text then advance; return (true, false) else return (false, false)
      | _ => return (false, false)
    else return (false, false)
  if isInfer then
    let _ ← name
    if ← isWord "extends" then
      let _ ← attempt do
        advance
        g.type s false
        if conditional && (← isSign "?") then unexpected
  else arrayType g s
where
  /-- Reserved words that start types. -/
  typeWords : List String := ["void", "null", "this", "true", "false", "typeof", "import"]

/-- Types between signs of one kind, which may also stand before the first. -/
def typesBetween (sign : String) (item : Parse Unit) : Parse Unit := do
  let _ ← eatSign sign
  item
  loop () fun _ => do
    if ← eatSign sign then item; return ((), true) else return ((), false)

/-- A type that is no conditional one. -/
def plainType (s : Setting) (conditional : Bool) : Parse Unit := do
  if (← isSign "<") || ((← isSign "(") && (← atFunctionType g s)) then functionType
  else if ← isWord "new" then
    advance
    functionType
  else if (← isWord "abstract") && (← peek).lexeme == .name "new" then
    advance
    advance
    functionType
  else typesBetween "|" (typesBetween "&" do
    if (← isSign "<") || ((← isSign "(") && (← atFunctionType g s)) then functionType
    else operatorType g s conditional)
where
  /-- Parameters and an arrow before the type that is returned. -/
  functionType : Parse Unit := do
    typeParametersHere g s
    typeParameterList g s
    expectSign "=>"
    returnType g s

/-- The rule of a type. -/
def typeRule (s : Setting) (conditional : Bool) : Parse Unit := do
  plainType g s conditional
  if conditional && (← isWord "extends") && !(← afterLine) then
    advance
    plainType g s false
    expectSign "?"
    g.type s true
    expectSign ":"
    g.type s true

end Grammar

end StaticConfig
