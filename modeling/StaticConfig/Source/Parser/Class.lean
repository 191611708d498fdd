import StaticConfig.Source.Parser.Pattern

/-!
# Classes

Classes are parsed only to find where they end and what is at fault in them.
-/

namespace StaticConfig

open Parse

namespace Grammar

variable (g : Grammar)

/-- Words that may stand before a member of a class. -/
def classModifiers : List String :=
  ["declare", "public", "private", "protected", "static", "override", "abstract", "readonly",
    "accessor", "async", "get", "set"]

/-- Whether a member name can follow a modifier. -/
def startsMemberName (t : Token) : Bool :=
  match t.lexeme with
  | .name _ | .string _ | .number _ | .bigInt | .hidden _ => true
  | .sign text => text == "[" || text == "*"
  | _ => false

/-- Passes the modifiers of a member and tells which there are. -/
def memberModifiers : Parse (List String) :=
  loop [] fun found => do
    match ← lexeme with
    | .name text =>
      if classModifiers.contains text && startsMemberName (← peek) then
        advance
        return (text :: found, true)
      else return (found, false)
    | _ => return (found, false)

/-- A member of a class. -/
def classMember (s : Setting) : Parse Unit := do
  if ← eatSign ";" then return
  if (← isWord "static") && (← peek).lexeme == .sign "\x7b" then
    advance
    let _ ← functionBody g s false false
    return
  let modifiers ← memberModifiers
  let isAsync := modifiers.contains "async"
  if ← atIndexSignature then
    indexSignature g s
    memberEnd
    return
  let isGenerator ← eatSign "*"
  memberName g s
  let _ ← eatSign "?"
  if !(← afterLine) then
    let _ ← eatSign "!"
  if (← isSign "(") || (← isSign "<") then
    functionRest g { s with inFunction := true } isAsync isGenerator true
  else
    annotatedType g s
    if ← eatSign "=" then
      let _ ← g.assignment (s.function false false)
    semicolon

/-- A class from the word `class` on. Declarations must have a name. -/
def classRest (s : Setting) (mustBeNamed : Bool) : Parse (Option String) := do
  expectWord "class"
  let named ←
    if mustBeNamed || ((← isName) && !(← isWord "implements")) then do pure (some (← boundName))
    else pure none
  typeParametersHere g s
  if ← eatWord "extends" then
    let _ ← g.unary s
    if ← isSign "<" then typeArguments g s
  if ← eatWord "implements" then
    let _ ← commaSeparated (g.type s true)
  expectSign "\x7b"
  let _ ← untilSign "\x7d" (classMember g s.bracketed)
  return named

end Grammar

end StaticConfig
