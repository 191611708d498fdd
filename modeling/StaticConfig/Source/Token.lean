import StaticConfig.Number.Basic

/-!
# Tokens

The words of source text and the places where they stand.
-/

namespace StaticConfig

/-- A place in a text: the characters from there on, and how many come before. -/
structure Cursor where
  rest : List Char
  pos : Nat
deriving Inhabited

namespace Cursor

/-- The place `n` characters further. -/
def skip (c : Cursor) (n : Nat) : Cursor := ⟨c.rest.drop n, c.pos + n⟩

/-- The place before the first character. -/
def ofText (text : String) : Cursor := ⟨text.toList, 0⟩

end Cursor

/-- What a token is. -/
inductive Lexeme
  /-- A name or keyword; escapes in it are resolved. -/
  | name (text : String)
  /-- A name with `#` before it. -/
  | hidden (text : String)
  | string (value : String)
  | number (value : Number)
  | bigInt
  | regex
  /-- A bracket, operator or other sign. -/
  | sign (text : String)
  /-- Text of a template, or between the tags of an element. -/
  | plainText
  /-- The angle bracket that opens a tag. -/
  | tagOpening
  /-- The opening of a substitution in a template. -/
  | substitution
  /-- No token, for a cause found at a position. -/
  | invalid (pos : Nat)
  | endOfText
deriving DecidableEq, Inhabited

/-- A token: what it is, from where to where it stands, and whether a line ended before it. -/
structure Token where
  lexeme : Lexeme
  start : Nat
  stop : Nat
  afterLine : Bool
deriving DecidableEq, Inhabited

end StaticConfig
