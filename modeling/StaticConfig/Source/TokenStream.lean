import StaticConfig.Source.Lexer

/-!
# The tokens of a text, without parsing it

Whether a slash divides or opens a regular expression, whether a closing brace ends a substitution
of a template, and whether an angle bracket opens a tag, depends on the forms around. Here that is
decided from the brackets that are open and from the token before, which is enough to go through
the tokens of a text of any depth step by step.
-/

namespace StaticConfig

/-- A form that is open at a place in a text. -/
inductive Enclosure
  /-- Braces around statements. -/
  | statements
  /-- Other braces. -/
  | braces
  /-- Parentheses after the word that opens a statement. -/
  | condition (ofLoop : Bool)
  | parentheses
  | template
  | substitution
  | functionValue
  | classValue
  | element
  | openingTag
  | closingTag
deriving DecidableEq

/-- Whether the form is an operand when it is closed. -/
def Enclosure.isOperand : Enclosure → Bool
  | statements | condition _ | openingTag | closingTag => false
  | _ => true

/-- What decides how a text is read at a place. -/
structure Surroundings where
  /-- The forms that are open there, innermost first. -/
  enclosures : List Enclosure
  /-- The token before. -/
  previous : Option Lexeme
  /-- Whether an operand may come next. -/
  operandNext : Bool

namespace Surroundings

/-- At the start of a text. -/
def outermost : Surroundings := ⟨[], none, true⟩

/-- The innermost open form; outside of all are the statements of the text. -/
def innermost (w : Surroundings) : Enclosure := w.enclosures.headD .statements

/-! ### Words -/

/-- Words after which an operand may come. -/
def wordsBeforeOperands : List String :=
  ["await", "case", "default", "do", "else", "return", "throw", "new", "extends", "yield", "in",
    "instanceof", "typeof", "void", "delete"]

/-- Words with a meaning of their own before which no operand comes. -/
def otherKeywords : List String :=
  ["break", "catch", "continue", "debugger", "finally", "for", "function", "if", "switch", "try",
    "var", "let", "const", "while", "with", "this", "super", "class", "export", "import"]

/-- Whether a word has a meaning of its own. -/
def isKeyword (text : String) : Bool :=
  wordsBeforeOperands.contains text || otherKeywords.contains text

/-- Whether an operand may come after a token wherever it stands. -/
def beforeOperand : Lexeme → Bool
  | .name text => wordsBeforeOperands.contains text
  | .sign text => !([".", "?.", ")", "]", "\x7d", "++", "--", "\x60"].contains text)
  | .substitution => true
  | _ => false

/-! ### The form that a brace opens -/

/-- Whether a brace opens a block of statements here. -/
def opensStatements (w : Surroundings) (afterLine : Bool) : Bool :=
  match w.previous with
  | none => true
  | some (.name "return") | some (.name "yield") => afterLine
  | some (.name "else") => true
  | some (.sign text) =>
    if text == ":" && w.innermost == .statements then true
    else if text == ":" && w.innermost == .braces then false
    else if text == "\x7b" then w.innermost == .statements
    else [";", ")", "<", ">", "=>"].contains text || !w.operandNext
  | some _ => !w.operandNext

/-- Leaves the innermost form at its closing bracket. -/
def close (w : Surroundings) : List Enclosure × Bool :=
  match w.enclosures with
  | [] => ([], true)
  | .statements :: .functionValue :: outer | .statements :: .classValue :: outer => (outer, false)
  | .substitution :: outer => (outer, outer.head? != some .template)
  | form :: outer => (outer, !form.isOperand)

/-- The form that a word opens if it stands where an operand may. -/
def enterValue (w : Surroundings) (afterLine : Bool) (form : Enclosure) : List Enclosure :=
  if w.operandNext && !w.opensStatements afterLine then form :: w.enclosures else w.enclosures

/-- The open forms after a word, and whether an operand may come next. -/
def afterWord (w : Surroundings) (afterLine : Bool) (text : String) : List Enclosure × Bool :=
  if isKeyword text && w.previous == some (.sign ".") then (w.enclosures, false)
  else match text with
    | "function" => (w.enterValue afterLine .functionValue, false)
    | "class" => (w.enterValue afterLine .classValue, false)
    | "of" =>
      (w.enclosures, w.innermost == .condition true && !w.previous.any beforeOperand)
    | _ => (w.enclosures, beforeOperand (.name text))

/-- The open forms after a sign, and whether an operand may come next. -/
def afterSign (elements : Bool) (w : Surroundings) (afterLine : Bool) (text : String) :
    List Enclosure × Bool :=
  let forms := w.enclosures
  match text with
  | ")" | "\x7d" => w.close
  | "(" =>
    let form :=
      match w.previous with
      | some (.name "if") | some (.name "with") | some (.name "while") => .condition false
      | some (.name "for") => .condition true
      | _ => .parentheses
    (form :: forms, true)
  | "\x7b" =>
    let form :=
      if elements && w.innermost == .openingTag then Enclosure.braces
      else if elements && w.innermost == .element then .substitution
      else if w.opensStatements afterLine then .statements
      else .braces
    (form :: forms, true)
  | "\x60" => if w.innermost == .template then (forms.drop 1, false) else (.template :: forms, false)
  | ":" =>
    if w.innermost == .functionValue || w.innermost == .classValue then (forms.drop 1, true)
    else (forms, true)
  | "++" | "--" => (forms, w.operandNext)
  | ">" =>
    match forms with
    | .openingTag :: outer =>
      if w.previous == some (.sign "/") then
        (outer.drop 1, (outer.drop 1).head? == some .element)
      else (outer, true)
    | .closingTag :: outer => (outer.drop 1, (outer.drop 1).head? == some .element)
    | _ => (forms, true)
  | "/" =>
    if w.previous == some .tagOpening then (.closingTag :: forms.drop 2, false) else (forms, true)
  | _ => (forms, beforeOperand (.sign text))

/-- The surroundings after a token. -/
def after (elements : Bool) (w : Surroundings) (t : Token) : Surroundings :=
  let (forms, operandNext) :=
    match t.lexeme with
    | .name text => w.afterWord t.afterLine text
    | .sign text => w.afterSign elements t.afterLine text
    | .substitution => (.substitution :: w.enclosures, true)
    | .tagOpening => (.openingTag :: .element :: w.enclosures, false)
    | .plainText => (w.enclosures, w.innermost == .element)
    | _ => (w.enclosures, false)
  ⟨forms, some t.lexeme, operandNext⟩

/-! ### Reading -/

/-- A token of some length at a place. -/
def tokenAt (c : Cursor) (lexeme : Lexeme) (length : Nat) : Token × Cursor :=
  (⟨lexeme, c.pos, c.pos + length, false⟩, c.skip length)

/-- Reads the next token inside a template. -/
def readInTemplate (c : Cursor) : Token × Cursor :=
  match c.rest with
  | '\x60' :: _ => tokenAt c (.sign "\x60") 1
  | '$' :: '\x7b' :: _ => tokenAt c .substitution 2
  | _ =>
    match Lexer.readPiece c with
    | some piece => tokenAt c .plainText (piece.after.pos - c.pos - (if piece.closes then 1 else 2))
    | none => tokenAt c (.invalid c.pos) c.rest.length

/-- Reads the next token where operands and operators stand. -/
def readOutside (elements operandNext : Bool) (c : Cursor) : Token × Cursor :=
  let r := Lexer.readToken c
  if !operandNext then (r.token, r.after)
  else match r.start.rest with
    | '/' :: _ =>
      let regex := Lexer.readRegex r
      (regex.token, regex.after)
    | '<' :: next :: _ =>
      if elements && next != '!' then
        (⟨.tagOpening, r.start.pos, r.start.pos + 1, r.token.afterLine⟩, r.start.skip 1)
      else (r.token, r.after)
    | _ => (r.token, r.after)

/-- Reads the next token in some surroundings. -/
def read (elements : Bool) (w : Surroundings) (c : Cursor) : Token × Cursor :=
  match w.innermost with
  | .template => if c.rest.isEmpty then tokenAt c .endOfText 0 else readInTemplate c
  | .element =>
    match c.rest with
    | [] => tokenAt c .endOfText 0
    | '<' :: _ => if w.operandNext then tokenAt c .tagOpening 1 else tokenAt c (.sign "<") 1
    | '\x7b' :: _ => tokenAt c (.sign "\x7b") 1
    | _ => tokenAt c .plainText ((Lexer.readElementText c).pos - c.pos)
  | .openingTag | .closingTag =>
    let r := Lexer.readTagToken c
    (r.token, r.after)
  | _ => readOutside elements w.operandNext c

end Surroundings

/-- The tokens from a place on; `bound` bounds their number. -/
def tokensFrom (elements : Bool) : (bound : Nat) → Surroundings → Cursor → List Token
  | 0, _, _ => []
  | bound + 1, w, c =>
    let (token, rest) := w.read elements c
    if token.lexeme == .endOfText then []
    else token :: tokensFrom elements bound (w.after elements token) rest

/-- The tokens of a text; with `elements`, tags are among them. -/
def tokens (elements : Bool) (text : Cursor) : List Token :=
  tokensFrom elements (text.rest.length + 1) .outermost text

end StaticConfig
