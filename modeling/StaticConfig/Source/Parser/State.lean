import StaticConfig.Source.Lexer
import StaticConfig.Source.Tree

/-!
# Parsing steps

A parser reads tokens from a state that only moves forward. It stops at the position of the first
fault that it cannot pass; a fault that it can pass is reported and remembered, so that in the end
the earliest of all of them counts. `attempt` takes back everything that a failing parser did.
-/

namespace StaticConfig

/-- The state of a parse. -/
structure ParseState where
  /-- The current token. -/
  current : Lexer.Reading
  /-- Where the token before it started. -/
  lastStart : Nat
  /-- Where the token before it ended. -/
  lastStop : Nat
  /-- The earliest fault that was reported. -/
  fault : Option Nat

/-- A parsing step; its failure is the position of a fault. -/
abbrev Parse (α : Type) : Type := EStateM Nat ParseState α

/-- What a form may contain, given the forms around it. -/
structure Setting where
  file : Path
  /-- Whether elements are read and type assertions are not. -/
  elements : Bool
  /-- Whether `in` is an operator. -/
  allowIn : Bool
  /-- Whether a colon belongs to a conditional expression around. -/
  colonAhead : Bool
  inFunction : Bool
  inAsync : Bool
  inGenerator : Bool
  inLoop : Bool
  inSwitch : Bool
  labels : List String
  /-- Whether declarations only describe what exists elsewhere. -/
  ambient : Bool
  /-- Where the current assignment expression starts, the only place for an arrow function. -/
  arrowAt : Nat

/-- The setting of the items of a module. -/
def Setting.ofModule (file : Path) (elements : Bool) : Setting :=
  ⟨file, elements, true, false, false, true, false, false, false, [], false, 0⟩

namespace Setting

/-- Inside brackets, where `in` is an operator and no colon is awaited. -/
def bracketed (s : Setting) : Setting := { s with allowIn := true, colonAhead := false }

/-- Inside the body of a function. -/
def function (s : Setting) (isAsync isGenerator : Bool) : Setting :=
  { s with
    allowIn := true, colonAhead := false, inFunction := true, inAsync := isAsync
    inGenerator := isGenerator, inLoop := false, inSwitch := false, labels := []
    ambient := false }

end Setting

/-- The earlier of two positions. -/
def earliest : Option Nat → Option Nat → Option Nat
  | some a, some b => some (min a b)
  | a, b => a.or b

namespace Parse

variable {α β : Type}

/-! ### The current token -/

/-- The current token. -/
def token : Parse Token := return (← get).current.token

/-- What the current token is. -/
def lexeme : Parse Lexeme := return (← token).lexeme

/-- Where the current token starts. -/
def start : Parse Nat := return (← token).start

/-- Where the last token ended. -/
def lastStop : Parse Nat := return (← get).lastStop

/-- Where the last token started. -/
def lastStart : Parse Nat := return (← get).lastStart

/-- The token after the current one. -/
def peek : Parse Token := return (Lexer.readToken (← get).current.after).token

/-- Goes on to the next token. -/
def advance : Parse Unit := modify fun s =>
  { s with
    current := Lexer.readToken s.current.after
    lastStart := s.current.token.start
    lastStop := s.current.token.stop }

/-- Makes `reading` the current token. -/
def reread (reading : Lexer.Reading) : Parse Unit := modify ({ · with current := reading })

/-- Whether a line ended before the current token. -/
def afterLine : Parse Bool := return (← token).afterLine

/-! ### Faults -/

/-- Where a token is at fault: at its start, unless something in it is. -/
def faultOf (t : Token) : Nat :=
  match t.lexeme with
  | .invalid pos => pos
  | _ => t.start

/-- Stops at a position. -/
def stopAt (pos : Nat) : Parse α := throw pos

/-- Stops at the current token. -/
def unexpected : Parse α := do stopAt (faultOf (← token))

/-- Remembers a fault and goes on. -/
def report (pos : Nat) : Parse Unit :=
  modify fun s => { s with fault := earliest s.fault (some pos) }

/-- Remembers a fault, if there is one. -/
def reportAny (pos : Option Nat) : Parse Unit :=
  modify fun s => { s with fault := earliest s.fault pos }

/-- Runs a parser and takes it back if it fails. -/
def attempt (p : Parse α) : Parse (Option α) := fun s =>
  match p s with
  | .ok a after => .ok (some a) after
  | .error _ _ => .ok none s

/-- Whether a parser would succeed here. -/
def wouldParse (p : Parse α) : Parse Bool := fun s =>
  match p s with
  | .ok _ _ => .ok true s
  | .error _ _ => .ok false s

/-! ### Signs and names -/

/-- Whether the current token is a sign. -/
def isSign (text : String) : Parse Bool := return (← lexeme) == .sign text

/-- Whether the current token is one of some signs. -/
def isAnySign (texts : List String) : Parse Bool := do
  match ← lexeme with
  | .sign text => return texts.contains text
  | _ => return false

/-- Passes a sign if it is there. -/
def eatSign (text : String) : Parse Bool := do
  if ← isSign text then advance; return true else return false

/-- Passes a sign that must be there. -/
def expectSign (text : String) : Parse Unit := do
  unless ← eatSign text do unexpected

/-- Whether the current token is a word. -/
def isWord (text : String) : Parse Bool := return (← lexeme) == .name text

/-- Whether the current token is one of some words. -/
def isAnyWord (texts : List String) : Parse Bool := do
  match ← lexeme with
  | .name text => return texts.contains text
  | _ => return false

/-- Passes a word if it is there. -/
def eatWord (text : String) : Parse Bool := do
  if ← isWord text then advance; return true else return false

/-- Passes a word that must be there. -/
def expectWord (text : String) : Parse Unit := do
  unless ← eatWord text do unexpected

/-- Whether the text ends here. -/
def atEnd : Parse Bool := return (← lexeme) == .endOfText

/-- Ends a statement: with a semicolon, or before a closing brace, a new line or the end of the
text. -/
def eatSemicolon : Parse Bool := do
  if ← eatSign ";" then return true
  else return (← isSign "\x7d") || (← atEnd) || (← afterLine)

/-- Ends a statement that must end here. -/
def semicolon : Parse Unit := do
  unless ← eatSemicolon do unexpected

/-! ### Sequences -/

/-- How much text is left, which bounds how often a step can be repeated. -/
def remaining : Parse Nat := return (← get).current.start.rest.length + 1

/-- Repeats a step at most `bound` times, as long as it asks for more. -/
def repeatUpTo (step : α → Parse (α × Bool)) : Nat → α → Parse α
  | 0, a => return a
  | bound + 1, a => do
    let (a, more) ← step a
    if more then repeatUpTo step bound a else return a

/-- Repeats a step as long as it asks for more. -/
def loop (first : α) (step : α → Parse (α × Bool)) : Parse α := do
  repeatUpTo step ((← remaining) + 1) first

/-- Items up to a closing sign, which is passed. -/
def untilSign (close : String) (item : Parse α) : Parse (List α) := do
  let items ← loop [] fun items => do
    if ← eatSign close then return (items, false)
    else return ((← item) :: items, true)
  return items.reverse

/-- Items separated by commas up to a closing sign, which is passed; a comma may end them. -/
def commaList (close : String) (item : Parse α) : Parse (List α) :=
  untilSign close do
    let a ← item
    unless ← isSign close do expectSign ","
    return a

/-- Items separated by commas, at least one. -/
def commaSeparated (item : Parse α) : Parse (List α) := do
  let first ← item
  let items ← loop [first] fun items => do
    if ← eatSign "," then return ((← item) :: items, true) else return (items, false)
  return items.reverse

/-! ### Spans -/

/-- The text from `start` up to the end of the last token. -/
def spanFrom (s : Setting) (start : Nat) : Parse Span := return ⟨s.file, start, ← lastStop⟩

end Parse

/-! ### Words -/

/-- Words that can never be names. -/
def reservedWords : List String :=
  ["break", "case", "catch", "class", "const", "continue", "debugger", "default", "delete", "do",
    "else", "enum", "export", "extends", "false", "finally", "for", "function", "if", "import",
    "in", "instanceof", "new", "null", "return", "super", "switch", "this", "throw", "true", "try",
    "typeof", "var", "void", "while", "with", "await", "yield", "let", "static", "implements",
    "interface", "package", "private", "protected", "public"]

/-- Whether a word can be a name in a module. -/
def isNameWord (text : String) : Bool := !reservedWords.contains text

namespace Parse

/-- Whether the current token can be a name. -/
def isName : Parse Bool := do
  match ← lexeme with
  | .name text => return isNameWord text
  | _ => return false

/-- Passes a name. -/
def name : Parse String := do
  match ← lexeme with
  | .name text => if isNameWord text then advance; return text else unexpected
  | _ => unexpected

/-- Passes any word, reserved or not. -/
def word : Parse String := do
  match ← lexeme with
  | .name text => advance; return text
  | _ => unexpected

/-- Passes a name that is to be bound, which `eval` and `arguments` cannot be. -/
def boundName : Parse String := do
  let pos ← start
  let text ← name
  if text == "eval" || text == "arguments" then report pos
  return text

end Parse

end StaticConfig
