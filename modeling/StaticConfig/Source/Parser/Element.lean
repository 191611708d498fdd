import StaticConfig.Source.Parser.Grammar

/-!
# Elements

Tags, attributes and children as in markup. Inside tags and between them the text is read by rules
of its own, so these parsers work on places in the text and set the current token as they need it.
-/

namespace StaticConfig

open Parse Lexer

namespace Grammar

variable (g : Grammar)

/-- Goes on to the next token of a tag. -/
def advanceInTag : Parse Unit := modify fun s =>
  { s with current := readTagToken s.current.after, lastStop := s.current.token.stop }

/-- Passes a name of a tag. -/
def nameInTag : Parse String := do
  match ← lexeme with
  | .name text => advanceInTag; return text
  | _ => unexpected

/-- The name of an element: simple, with a namespace, or a member of something. -/
def tagName : Parse String := do
  let first ← nameInTag
  loop first fun text => do
    if (← isSign ".") || (← isSign ":") then
      advanceInTag
      return (text ++ "." ++ (← nameInTag), true)
    else return (text, false)

/-- An expression in braces; the token after the closing one is left to the caller. -/
def embedded (s : Setting) (mayBeEmpty : Bool) : Parse Unit := do
  expectSign "\x7b"
  if mayBeEmpty && (← isSign "\x7d") then return
  let _ ← eatSign "..."
  let _ ← g.expression s.bracketed
  unless ← isSign "\x7d" do unexpected

/-- An attribute. -/
def tagAttribute (s : Setting) : Parse Unit := do
  if ← isSign "\x7b" then
    embedded g s false
    advanceInTag
  else
    let _ ← nameInTag
    if ← isSign ":" then
      advanceInTag
      let _ ← nameInTag
    if ← isSign "=" then
      advanceInTag
      match ← lexeme with
      | .string _ => advanceInTag
      | .sign "\x7b" =>
        embedded g s false
        advanceInTag
      | .sign "<" =>
        let before := (← get).current.start
        g.element s
        let stop ← lastStop
        reread (readTagToken (before.skip (stop - before.pos)))
      | _ => unexpected

/-- Ends an element at a place: what comes after it is read as usual again. -/
def closeAt (c : Cursor) : Parse Unit := do
  modify ({ · with lastStop := c.pos })
  reread (readToken c)

/-- The children of an element and its closing tag, from a place on. `opening` is where the fault
lies if the tag is never closed. -/
def children (s : Setting) (name : String) (opening : Nat) (first : Cursor) : Parse Unit := do
  let _ ← loop first fun c => do
    let c := readElementText c
    match c.rest with
    | [] => stopAt opening
    | '<' :: _ =>
      reread (readTagToken (c.skip 1))
      if ← isSign "/" then
        advanceInTag
        let pos ← start
        let closing ← if ← isSign ">" then pure "" else tagName
        unless closing == name do stopAt pos
        unless ← isSign ">" do unexpected
        closeAt (← get).current.after
        return (c, false)
      else
        reread (readToken c)
        g.element s
        return (c.skip ((← lastStop) - c.pos), true)
    | _ =>
      reread (readToken c)
      embedded g s true
      return ((← get).current.after, true)

/-- The rule of an element, from its opening angle bracket on. -/
def elementRule (s : Setting) : Parse Unit := do
  unless ← isSign "<" do unexpected
  advanceInTag
  let opening ← start
  if ← isSign ">" then children g s "" opening (← get).current.after
  else
    let name ← tagName
    if ← isSign "<" then
      -- Type arguments; their closing bracket is followed by the rest of the tag.
      expectSign "<"
      let _ ← commaSeparated (g.type s true)
      unless ← isSign ">" do unexpected
      advanceInTag
    loop () fun _ => do
      if (← isSign ">") || (← isSign "/") then return ((), false)
      else tagAttribute g s; return ((), true)
    if ← isSign "/" then
      advanceInTag
      unless ← isSign ">" do unexpected
      closeAt (← get).current.after
    else children g s name opening (← get).current.after

end Grammar

end StaticConfig
