import StaticConfig.Source.Parser.State

/-!
# Forms that contain each other

Expressions, types, patterns and statements contain one another, so the rules of each are written
for given parsers of the others, collected in a `Grammar`. Where all rules are known, the grammar is
tied together once, with the length of the text as a bound on how deep forms can nest.

An expression may turn out to be a pattern when the parser comes to an arrow or an equals sign. A
`Cover` is an expression together with what would be at fault if it were read as one.
-/

namespace StaticConfig

/-- An expression that may still become a pattern. -/
structure Cover where
  expr : Expr
  /-- What is at fault if it binds parameters. -/
  asBinding : Option Nat
  /-- What is at fault if it is assigned to. -/
  asTarget : Option Nat
  /-- Whether it is an optional chain, which members accessed on it continue. -/
  isChain : Bool

namespace Cover

/-- An expression that is no pattern. -/
def value (e : Expr) : Cover := ⟨e, some e.span.start, some e.span.start, false⟩

/-- An expression that can be assigned to but binds nothing. -/
def place (e : Expr) : Cover := ⟨e, some e.span.start, none, false⟩

/-- Where the expression starts. -/
def start (c : Cover) : Nat := c.expr.span.start

/-- Whether it is an arrow function, which nothing can be appended to. -/
def isArrow (c : Cover) : Bool :=
  match c.expr with
  | .arrow .. => true
  | _ => false

/-- The arrow function with its span starting earlier. -/
def startingAt (c : Cover) (pos : Nat) : Cover :=
  match c.expr with
  | .arrow span isAsync params body => .value (.arrow { span with start := pos } isAsync params body)
  | _ => c

/-- Whether it is an expression of that kind which keeps nothing else. -/
def isOther (c : Cover) (kind : Kind) : Bool :=
  match c.expr with
  | .other _ k => k == kind
  | _ => false

/-- The parameter that it is if it binds parameters. -/
def param (c : Cover) : Param :=
  match c.expr with
  | .identifier ident => .name ident.name
  | .array span _ => .pattern span .arrayBindingPattern
  | .object span _ => .pattern span .objectBindingPattern
  | .other span .assignmentExpression => .pattern span .defaultParameter
  | e => .pattern e.span .parameter

end Cover

/-- A binding pattern: where it stands and the name that it binds if it is a plain one. -/
structure Pattern where
  span : Span
  name? : Option String
  kind : Kind

/-- Parsers of the forms that contain each other. -/
structure Grammar where
  /-- An expression without commas outside brackets. -/
  assignment : Setting → Parse Cover
  /-- An operand with the operators before and after it. -/
  unary : Setting → Parse Cover
  /-- What follows an operand, as far as operators that bind tighter than the bound. -/
  operators : Setting → Cover → Nat → Parse Cover
  /-- A target of `new`. -/
  newTarget : Setting → Parse Cover
  /-- A type; conditional ones only if the flag says so. -/
  type : Setting → Bool → Parse Unit
  /-- A binding pattern. -/
  pattern : Setting → Parse Pattern
  /-- An element with its children. -/
  element : Setting → Parse Unit
  /-- A statement; declarations only if the flag says so. -/
  statement : Setting → Bool → Parse Stmt
  /-- An item of a module. -/
  item : Setting → Parse ModuleItem

namespace Grammar

/-- The grammar without any forms, at which nesting that is too deep ends. -/
def exhausted : Grammar where
  assignment _ := Parse.unexpected
  unary _ := Parse.unexpected
  operators _ _ _ := Parse.unexpected
  newTarget _ := Parse.unexpected
  type _ _ := Parse.unexpected
  pattern _ := Parse.unexpected
  element _ := Parse.unexpected
  statement _ _ := Parse.unexpected
  item _ := Parse.unexpected

/-- An expression, possibly several with commas between them. -/
def expression (g : Grammar) (s : Setting) : Parse Cover := do
  let first ← g.assignment s
  if ← Parse.isSign "," then
    let last ← Parse.loop first fun last => do
      if ← Parse.eatSign "," then return (← g.assignment s, true) else return (last, false)
    return .value (.other ⟨s.file, first.start, last.expr.span.stop⟩ .commaExpression)
  else return first

end Grammar

end StaticConfig
