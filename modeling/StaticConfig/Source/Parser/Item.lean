import StaticConfig.Source.Parser.Statement

/-!
# Items of modules

Imports, exports and statements. In imports and exports the fault of a text that ends too early is
at its last token.
-/

namespace StaticConfig

open Parse

namespace Grammar

variable (g : Grammar)

/-- Passes something that must come next in an import or export. -/
def require (passes : Parse Bool) : Parse Unit := do
  unless ← passes do
    if ← atEnd then stopAt (← lastStart) else unexpected

/-! ### Specifiers -/

/-- The names in a specifier. -/
structure Specifier where
  typeOnly : Bool
  /-- The name before `as`, or the only one. -/
  given : String
  /-- The name after `as`. -/
  renamed : Option String
  /-- Where the only or first name stands. -/
  pos : Nat
  /-- Whether the first name is a string, which can be no local name. -/
  quoted : Bool

/-- A name under which something is exported, and whether it is a string. -/
def exportName : Parse (String × Bool) := do
  match ← lexeme with
  | .name text => advance; return (text, false)
  | .string text => advance; return (text, true)
  | _ => unexpected

/-- Whether the current token is a word. -/
def atWord : Parse Bool := do
  match ← lexeme with
  | .name _ => return true
  | _ => return false

/-- A name after `as`, if there is one. -/
def renaming? (rename : Parse String) : Parse (Option String) := do
  if ← eatWord "as" then return some (← rename) else return none

/-- A specifier. The word `type` before a name makes it one of a type, unless it is the name
itself, and so may `as` be. -/
def specifier (rename : Parse String) : Parse Specifier := do
  let pos ← start
  let (first, quoted) ← exportName
  if first != "type" || quoted || !(← atWord) then
    return ⟨false, first, ← renaming? rename, pos, quoted⟩
  let secondPos ← start
  let second ← word
  if second != "as" then return ⟨true, second, ← renaming? rename, secondPos, false⟩
  if !(← atWord) then return ⟨true, second, none, secondPos, false⟩
  let third ← word
  if third != "as" then return ⟨false, first, some third, pos, false⟩
  if !(← atWord) then return ⟨false, first, some third, pos, false⟩
  return ⟨true, second, some (← rename), secondPos, false⟩

/-- Specifiers in braces. -/
def specifiers (rename : Parse String) : Parse (List Specifier) := do
  require (eatSign "\x7b")
  untilSign "\x7d" do
    require (return !(← atEnd))
    let found ← specifier rename
    unless ← isSign "\x7d" do require (eatSign ",")
    return found

/-! ### Sources -/

/-- The source of an import or export, with its attributes, up to the end of the statement. -/
def source (s : Setting) : Parse String := do
  match ← lexeme with
  | .string text =>
    advance
    if (← isAnyWord ["with", "assert"]) && !(← afterLine) then
      advance
      let _ ← object g s
    semicolon
    return text
  | _ => unexpected

/-- The source after the word `from`. -/
def fromSource (s : Setting) : Parse String := do
  require (eatWord "from")
  source g s

/-! ### Imports -/

/-- Whether the word `type` here says that only types are imported. -/
def importsTypes : Parse Bool := do
  if ← isWord "type" then
    match (← peek).lexeme with
    | .sign text => return text == "\x7b" || text == "*"
    | .name "from" => wouldParse do
      advance
      advance
      expectWord "from"
    | .name _ => return true
    | _ => return false
  else return false

/-- An imported name, which must be a plain one unless it is renamed. -/
def importSpecifier (s : Specifier) : Parse ImportSpecifier := do
  match s.renamed with
  | some binds => return .named s.typeOnly s.given binds
  | none =>
    if s.quoted then unexpected
    unless isNameWord s.given do stopAt s.pos
    return .named s.typeOnly s.given s.given

/-- What is imported under names in braces, or all together. -/
def importedNames (s : Setting) : Parse (List ImportSpecifier) := do
  let pos ← start
  if ← eatSign "*" then
    require (eatWord "as")
    let binds ← boundName
    return [.star (← spanFrom s pos) binds]
  else (← specifiers boundName).mapM importSpecifier

/-- What an import gives another name to, up to the end of the statement. -/
def importAlias (s : Setting) : Parse ModuleItem := do
  expectSign "="
  if (← isWord "require") && (← peek).lexeme == .sign "(" then
    advance
    let _ ← callArguments g s
  else entityName
  semicolon
  return .other

/-- An import from its first word on. -/
def importItem (s : Setting) : Parse ModuleItem := do
  expectWord "import"
  if let .string _ ← lexeme then return .imports false (← source g s) []
  let typeOnly ← importsTypes
  if typeOnly then advance
  let main ←
    if ← isName then do
      let binds ← boundName
      if ← isSign "=" then return ← importAlias g s
      pure [ImportSpecifier.defaultExport binds]
    else pure []
  let named ←
    if main.isEmpty then
      if (← isSign "*") || (← isSign "\x7b") then importedNames s else pure []
    else do
      if ← eatSign "," then importedNames s else pure []
  return .imports typeOnly (← fromSource g s) (main ++ named)

/-! ### Exports -/

/-- A default export after the word `default`; `pos` is where the statement starts. -/
def defaultExport (s : Setting) (pos : Nat) : Parse ModuleItem := do
  let next ← peek
  match ← lexeme with
  | .name "class" => classOrFunction (do let _ ← classRest g s false)
  | .name "abstract" =>
    if next.lexeme == .name "class" && !next.afterLine then
      advance
      classOrFunction (do let _ ← classRest g s false)
    else value
  | .name "interface" => classOrFunction (do let _ ← interfaceDeclaration g s pos)
  | .name "function" => classOrFunction (function false)
  | .name "async" =>
    if ← atAsyncFunction then
      advance
      classOrFunction (function true)
    else value
  | _ => value
where
  /-- A declaration, which needs no name here. -/
  classOrFunction (declare : Parse Unit) : Parse ModuleItem := do
    declare
    return .defaultDeclaration (← spanFrom s pos)
  /-- A function with or without a name. -/
  function (isAsync : Bool) : Parse Unit := do
    expectWord "function"
    let isGenerator ← eatSign "*"
    if ← isName then
      let _ ← boundName
    functionRest g { s with inFunction := true } isAsync isGenerator true
  /-- An expression. -/
  value : Parse ModuleItem := do
    let c ← g.assignment s
    semicolon
    return .defaultValue c.expr

/-- An exported name. -/
def exportSpecifier (s : Specifier) : ExportSpecifier :=
  .named s.typeOnly s.given (s.renamed.getD s.given)

/-- What a module exports under names in braces, of its own or of another module. Its own must have
plain names. -/
def exportedNames (s : Setting) (typeOnly : Bool) : Parse ModuleItem := do
  let found ← specifiers (return (← exportName).1)
  let names := found.map exportSpecifier
  if ← isWord "from" then return .exports typeOnly (some (← fromSource g s)) names
  for specifier in found do
    if specifier.quoted || !isNameWord specifier.given then report specifier.pos
  semicolon
  return .exports typeOnly none names

/-- What a module exports of another one as a whole, from the star on; `pos` is where the text of
its name starts. -/
def exportedStar (s : Setting) (typeOnly : Bool) (pos : Nat) : Parse ModuleItem := do
  expectSign "*"
  if ← eatWord "as" then
    let (exported, _) ← exportName
    let span ← spanFrom s pos
    return .exports typeOnly (some (← fromSource g s)) [.star span exported]
  else return .exportAll typeOnly (← fromSource g s)

/-- An export from its first word on. -/
def exportItem (s : Setting) : Parse ModuleItem := do
  let pos ← start
  expectWord "export"
  if ← eatWord "default" then return ← defaultExport g s pos
  if ← isWord "import" then
    advance
    if ← importsTypes then advance
    let _ ← boundName
    return ← importAlias g s
  if ← eatSign "=" then
    let _ ← g.expression s
    semicolon
    return .other
  if ← eatWord "as" then
    expectWord "namespace"
    let _ ← name
    semicolon
    return .other
  if let some declaration ← declaration? g s then return .exported declaration
  let namesAt ← start
  let typeOnly ← eatWord "type"
  if ← isSign "*" then exportedStar g s typeOnly namesAt
  else if ← isSign "\x7b" then exportedNames g s typeOnly
  else unexpected

/-- The rule of an item of a module. -/
def itemRule (s : Setting) : Parse ModuleItem := do
  let next ← peek
  match ← lexeme with
  | .name "import" =>
    match next.lexeme with
    | .sign "(" | .sign "." => return .statement (← g.statement s true)
    | _ => importItem g s
  | .name "export" => exportItem g s
  | _ => return .statement (← g.statement s true)

end Grammar

end StaticConfig
