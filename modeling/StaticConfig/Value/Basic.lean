import StaticConfig.Number.Text
import StaticConfig.Record
import StaticConfig.Scope
import StaticConfig.Source.Tree

/-!
# Values

What an evaluation yields: data, and the two kinds of functions there are, arrow functions with
the scope they were made in and methods bound to their receiver. Everything that is built rather
than written down carries a tag, drawn from a supply, which says whether two values are one and
the same; tags show nowhere but in comparisons.
-/

namespace StaticConfig

/-- The methods that evaluated code can reach. -/
inductive Method
  | map | flatMap | includes | some | find | filter
  | slice | toUpperCase | toLowerCase
deriving DecidableEq

/-- The name of a method in source text. -/
def Method.name : Method → String
  | .map => "map"
  | .flatMap => "flatMap"
  | .includes => "includes"
  | .some => "some"
  | .find => "find"
  | .filter => "filter"
  | .slice => "slice"
  | .toUpperCase => "toUpperCase"
  | .toLowerCase => "toLowerCase"

/-- An arrow function as written: where it stands, its parameters and its body. -/
structure ArrowCode where
  span : Span
  params : List String
  body : ArrowBody

inductive Value
  | undefined
  | null
  | bool (value : Bool)
  | number (value : Number)
  | string (value : String)
  | list (tag : Nat) (items : List Value)
  | record (tag : Nat) (fields : Record Value)
  | closure (tag : Nat) (code : ArrowCode) (scope : Scope Value)
  | method (tag : Nat) (receiver : Value) (method : Method)

namespace Value

instance : Inhabited Value := ⟨.undefined⟩

/-- The name of the value's type in diagnostics. -/
def typeName : Value → String
  | .undefined => "undefined"
  | .null => "null"
  | .bool _ => "boolean"
  | .number _ => "number"
  | .string _ => "string"
  | .list .. => "list"
  | .record .. => "record"
  | .closure .. | .method .. => "function"

/-- Whether the value can be called. -/
def isCallable : Value → Bool
  | .closure .. | .method .. => true
  | _ => false

/-- Whether the value counts as true. -/
def isTruthy : Value → Bool
  | .undefined | .null => false
  | .bool value => value
  | .number value => value.isTruthy
  | .string value => !value.isEmpty
  | .list .. | .record .. | .closure .. | .method .. => true

/-! ### Conversions -/

mutual

/-- The text of a value where text is wanted: in templates, as a key and joined into a list. -/
def display : Value → String
  | .undefined => "undefined"
  | .null => "null"
  | .bool true => "true"
  | .bool false => "false"
  | .number value => value.toString
  | .string value => value
  | .list _ items => ",".intercalate (displayItems items)
  | .record .. => "[object Object]"
  | .closure .. => "[Function]"
  | .method _ _ m => "[Function: " ++ m.name ++ "]"

/-- The texts of the items of a list, where `undefined` and `null` leave nothing. -/
def displayItems : List Value → List String
  | [] => []
  | .undefined :: rest => "" :: displayItems rest
  | .null :: rest => "" :: displayItems rest
  | item :: rest => item.display :: displayItems rest

end

/-- The number that a value stands for. -/
def toNumber (v : Value) : Number :=
  match v with
  | .null | .bool false => .finite false .zero
  | .bool true => .ofNat 1
  | .number value => value
  | .string value => .ofText value.toList
  | .list .. => .ofText v.display.toList
  | .undefined | .record .. | .closure .. | .method .. => .nan

end Value

end StaticConfig
