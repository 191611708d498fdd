import StaticConfig.Source.Kind

/-!
# Faults

The causes for which an evaluation stops, and their wording.
-/

namespace StaticConfig

/-- Why an evaluation has no value. -/
inductive Fault
  /-- A form outside the sub-language, quoted with the innermost step around it. -/
  | unsupportedConstruct (kind : Kind) (text : String) (parent : Option String)
  /-- A name that is neither bound nor declared. -/
  | unresolvedIdentifier (name : String)
  /-- A callable member that is not allowed. -/
  | unsupportedMethod (name target : String)
  /-- An operator outside the sub-language. -/
  | unsupportedOperator (operator : String)
  /-- A clause or declaration that should hold exactly one entry. -/
  | arity (found : Nat)
  /-- A value of the wrong type. -/
  | typeMismatch (expected found : String)
  /-- Too many nested steps. -/
  | recursionLimit (limit : Nat)
deriving DecidableEq

/-- The wording of a fault. -/
def Fault.message : Fault → String
  | .unsupportedConstruct kind text parent =>
    "unsupported " ++ kind.name ++ ": \x60" ++ text ++ "\x60" ++
      match parent with
      | some parent => " in \x60" ++ parent ++ "\x60"
      | none => ""
  | .unresolvedIdentifier name => "cannot resolve identifier \x60" ++ name ++ "\x60"
  | .unsupportedMethod name target =>
    "method \x60" ++ name ++ "\x60 is not allowed on " ++ target ++ " values"
  | .unsupportedOperator operator => "unsupported operator \x60" ++ operator ++ "\x60"
  | .arity found => "expected exactly 1 statement(s), found " ++ toString found
  | .typeMismatch expected found => "expected " ++ expected ++ ", found " ++ found
  | .recursionLimit limit => "evaluation exceeded the maximum depth of " ++ toString limit

end StaticConfig
