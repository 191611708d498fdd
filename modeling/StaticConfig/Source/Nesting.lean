import StaticConfig.Source.TokenStream

/-!
# How deep brackets nest

A text is refused if too many brackets are open at once. The count goes over the tokens, so that
brackets in strings, comments and regular expressions do not matter, and it never falls below zero,
so that closing brackets too many do not let a deeper nest through.
-/

namespace StaticConfig

/-- The most brackets that may be open at once. -/
def maxNesting : Nat := 1024

/-- Whether a token opens a bracket. -/
def Token.opens (t : Token) : Bool :=
  match t.lexeme with
  | .sign text => text == "(" || text == "[" || text == "\x7b"
  | .substitution => true
  | _ => false

/-- Whether a token closes a bracket. -/
def Token.closes (t : Token) : Bool :=
  match t.lexeme with
  | .sign text => text == ")" || text == "]" || text == "\x7d"
  | _ => false

/-- Where the first bracket opens that makes more than `limit` open ones, `depth` being open
already. -/
def nestingOverflow (limit : Nat) : (depth : Nat) → List Token → Option Nat
  | _, [] => none
  | depth, t :: rest =>
    if t.opens then
      if limit ≤ depth then some t.start else nestingOverflow limit (depth + 1) rest
    else if t.closes then nestingOverflow limit (depth - 1) rest
    else nestingOverflow limit depth rest

end StaticConfig
