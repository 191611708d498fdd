import StaticConfig.Source.Parser.Class

/-!
# Templates, arrays and objects

Literals that contain expressions, and the arguments of calls. An array or object may turn out to be
a pattern, so its faults as one are collected from its items and members.
-/

namespace StaticConfig

open Parse

namespace Grammar

variable (g : Grammar)

/-- An expression of a kind that keeps nothing else. -/
def otherFrom (s : Setting) (pos : Nat) (kind : Kind) : Parse Cover :=
  return .value (.other (← spanFrom s pos) kind)

/-! ### Arguments and items -/

/-- An expression, spread or not. -/
def argument (s : Setting) : Parse (Cover × Bool) := do
  let isSpread ← eatSign "..."
  return (← g.assignment s, isSpread)

/-- The argument in the tree. -/
def argumentOf : Cover × Bool → Argument
  | (c, true) => .spread c.expr
  | (c, false) => .plain c.expr

/-- Arguments in parentheses. -/
def callArguments (s : Setting) : Parse (List Argument) := do
  expectSign "("
  let arguments ← commaList ")" (argument g s.bracketed)
  return arguments.map argumentOf

/-! ### Templates -/

/-- A template without a tag. -/
def template (s : Setting) : Parse Cover := do
  let pos ← start
  let (head, parts, bad) ← templatePieces (g.expression s.bracketed)
  reportAny bad
  let chunks := parts.map fun (c, text) => Chunk.mk c.expr (String.ofList text)
  return .value (.template (← spanFrom s pos) (String.ofList head) chunks)

/-- Passes a template that has a tag. -/
def taggedTemplate (s : Setting) : Parse Unit := do
  let _ ← templatePieces (g.expression s.bracketed)

/-! ### Arrays -/

/-- The fault of an item of an array that is read as a pattern; a rest must come last. -/
def itemFault (ofCover : Cover → Option Nat) : List (Option (Cover × Bool)) → Option Nat
  | [] => none
  | none :: rest => itemFault ofCover rest
  | some (c, isSpread) :: rest =>
    let misplaced := if isSpread && !rest.isEmpty then some c.start else none
    earliest (earliest misplaced (ofCover c)) (itemFault ofCover rest)

/-- The element in the tree. -/
def elementOf : Option (Cover × Bool) → Element
  | none => .hole
  | some item => .item (argumentOf item)

/-- An array literal. -/
def array (s : Setting) : Parse Cover := do
  let pos ← start
  expectSign "["
  let items ← untilSign "]" do
    if ← eatSign "," then return none
    let item ← argument g s.bracketed
    unless ← isSign "]" do expectSign ","
    return some item
  let span ← spanFrom s pos
  return ⟨.array span (items.map elementOf), itemFault Cover.asBinding items,
    itemFault Cover.asTarget items, false⟩

/-! ### Objects -/

/-- A member of an object literal and its faults as part of a pattern. -/
structure MemberCover where
  member : Member
  asBinding : Option Nat
  asTarget : Option Nat

/-- Passes words that may stand before a member or parameter in vain, and tells where the last one
stands. -/
def idleModifiers : Parse (Option Nat) :=
  loop none fun last => do
    if ← isAnyWord ["public", "private", "protected", "readonly"] then
      match (← peek).lexeme with
      | .name _ | .sign "[" | .sign "\x7b" =>
        let pos ← start
        advance
        return (some pos, true)
      | _ => return (last, false)
    else return (last, false)

/-- A key of an object literal, and the text of it if it is a word. -/
def propertyKey (s : Setting) : Parse (PropertyKey × Option String) := do
  let pos ← start
  match ← lexeme with
  | .name text => advance; return (.fixed text, some text)
  | .string text => advance; return (.fixed text, none)
  | .number value => advance; return (.number value, none)
  | .bigInt => advance; return (.bigInt (← spanFrom s pos), none)
  | .sign "[" => return (.computed (← computedKey g s), none)
  | _ => unexpected

/-- A member that is only named. -/
def otherMember (s : Setting) (pos : Nat) (kind : Kind) : Parse MemberCover := do
  return ⟨.other (← spanFrom s pos) kind, some pos, some pos⟩

/-- A member of an object literal. -/
def objectMember (s : Setting) : Parse MemberCover := do
  let pos ← start
  if ← eatSign "..." then
    let c ← g.assignment s
    let last := if ← isSign "," then some pos else none
    return ⟨.spread c.expr, earliest last c.asBinding, earliest last c.asTarget⟩
  if ← eatSign "*" then
    let _ ← propertyKey g s
    functionRest g s false true false
    return ← otherMember s pos .methodDeclaration
  let modifier ← idleModifiers
  let keyPos ← start
  let isPlain ← isName
  let (key, word?) ← propertyKey g s
  if ← eatSign ":" then
    let c ← g.assignment s
    return ⟨.entry key c.expr, c.asBinding, c.asTarget⟩
  if (← isSign "(") || (← isSign "<") then
    functionRest g s false false false
    return ← otherMember s pos .methodDeclaration
  match word? with
  | none => unexpected
  | some text =>
    let keySpan ← spanFrom s keyPos
    if ← isAnySign ["=", ",", "\x7d"] then
      unless isPlain do report keyPos
      if ← eatSign "=" then
        let _ ← g.assignment s
        return ⟨.other (← spanFrom s pos) .shorthandPropertyAssignment, none, none⟩
      return ⟨.shorthand ⟨text, keySpan⟩, none, none⟩
    else if text == "get" || text == "set" || text == "async" then
      reportAny modifier
      let isAsync := text == "async"
      let isGenerator ← if isAsync then eatSign "*" else pure false
      let _ ← propertyKey g s
      functionRest g s isAsync isGenerator false
      otherMember s pos
        (if isAsync then .methodDeclaration else if text == "get" then .getAccessor
          else .setAccessor)
    else unexpected

/-- The earliest of some faults. -/
def earliestOf (faults : List (Option Nat)) : Option Nat := faults.foldl earliest none

/-- An object literal. -/
def object (s : Setting) : Parse Cover := do
  let pos ← start
  expectSign "\x7b"
  let members ← commaList "\x7d" (objectMember g s.bracketed)
  let span ← spanFrom s pos
  return ⟨.object span (members.map (·.member)), earliestOf (members.map (·.asBinding)),
    earliestOf (members.map (·.asTarget)), false⟩

end Grammar

end StaticConfig
