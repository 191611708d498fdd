import StaticConfig.Text.Quoted
import StaticConfig.Value.Basic

/-!
# Values in diagnostics

The text that shows a value to a developer: strings are quoted, lists and records show their
contents and functions their parameters or name.
-/

namespace StaticConfig

namespace Value

mutual

/-- The diagnostic text of a value. -/
def debug : Value → String
  | .undefined => "undefined"
  | .null => "null"
  | .bool true => "true"
  | .bool false => "false"
  | .number value => value.toString
  | .string value => String.ofList (Text.debugQuoted value)
  | .list _ items => "[" ++ ", ".intercalate (debugItems items) ++ "]"
  | .record _ fields => "\x7b" ++ ", ".intercalate (debugFields fields.entries) ++ "\x7d"
  | .closure _ code _ => "<closure (" ++ ", ".intercalate code.params ++ ")>"
  | .method _ _ m => "<method " ++ m.name ++ ">"

def debugItems : List Value → List String
  | [] => []
  | item :: rest => item.debug :: debugItems rest

def debugFields : List (String × Value) → List String
  | [] => []
  | (key, value) :: rest =>
    (String.ofList (Text.debugQuoted key) ++ ": " ++ value.debug) :: debugFields rest

end

end Value

/-- The diagnostic text of a scope: the names of each frame, innermost first. -/
def Scope.debug {α : Type} (s : Scope α) : String :=
  let frame (names : List String) : String :=
    "[" ++ ", ".intercalate (names.map fun n => String.ofList (Text.debugQuoted n)) ++ "]"
  "[" ++ ", ".intercalate (s.names.map frame) ++ "]"

end StaticConfig
