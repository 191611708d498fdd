import StaticConfig.Extract

/-!
# Arguments of an extraction

What to extract and where to put it, as given on the command line: options and two positional
arguments in any order. An option that is given again replaces the earlier one.
-/

namespace StaticConfig

/-- What to extract and where to put it. -/
structure Arguments where
  file : String
  symbol : String
  shape : Shape
  /-- Where to write a snapshot; it is printed if there is no such path. -/
  output : Option String
  limit : Nat
deriving DecidableEq

/-- Why arguments make no sense. -/
inductive UsageFault
  | missingPath (option : String)
  | invalidLimit (text : String)
  | unknownOption (text : String)
  | missingPositional
  | unexpectedPositional (text : String)
deriving DecidableEq

/-- The wording of a usage fault. -/
def UsageFault.message : UsageFault → String
  | missingPath option => "missing path after '" ++ option ++ "'"
  | invalidLimit text => "invalid --max-depth value '" ++ text ++ "'"
  | unknownOption text => "unknown option '" ++ text ++ "'"
  | missingPositional => "expected <file> and <symbol>"
  | unexpectedPositional text => "unexpected argument '" ++ text ++ "'"

namespace Arguments

/-- What has been read so far. -/
structure Draft where
  positionals : List String
  shape : Shape
  output : Option String
  limit : Nat

/-- Nothing but the defaults. -/
def Draft.start : Draft := ⟨[], .any, none, defaultLimit⟩

/-- A limit in decimal digits, with or without a plus sign, that fits in 64 bits. -/
def limit? (text : String) : Option Nat :=
  let digits :=
    match text.toList with
    | '+' :: rest => rest
    | cs => cs
  (readDigits? 10 digits).filter (· < Nat.pow 2 64)

/-- The start of the option that sets the limit. -/
def limitOption : String := "--max-depth="

/-- The text after the option that sets the limit, if an argument is one. -/
def limitText? (arg : String) : Option String :=
  if limitOption.toList.isPrefixOf arg.toList then
    some (String.ofList (arg.toList.drop limitOption.length))
  else none

/-- Reads an argument that takes no other one with it. -/
def Draft.single (draft : Draft) (arg : String) : Except UsageFault Draft :=
  match limitText? arg with
  | some text =>
    match limit? text with
    | some limit => .ok { draft with limit }
    | none => .error (.invalidLimit text)
  | none =>
    if arg.toList.head? = some '-' then .error (.unknownOption arg)
    else .ok { draft with positionals := draft.positionals ++ [arg] }

/-- Reads arguments from left to right. -/
def Draft.read (draft : Draft) : List String → Except UsageFault Draft
  | [] => .ok draft
  | arg :: rest =>
    if arg = "--models" then Draft.read { draft with shape := .models } rest
    else if arg = "--config" then Draft.read { draft with shape := .config } rest
    else if arg = "-o" ∨ arg = "--output" then
      match rest with
      | [] => .error (.missingPath arg)
      | path :: rest => Draft.read { draft with output := some path } rest
    else do (← draft.single arg).read rest

/-- Reads all arguments; the number of positional ones is checked last. -/
def parse (args : List String) : Except UsageFault Arguments := do
  let draft ← Draft.start.read args
  match draft.positionals with
  | [file, symbol] => return ⟨file, symbol, draft.shape, draft.output, draft.limit⟩
  | [] | [_] => throw .missingPositional
  | _ :: _ :: extra :: _ => throw (.unexpectedPositional extra)

end Arguments

end StaticConfig
