import StaticConfig.Json
import StaticConfig.Value.Basic

/-!
# Values as JSON

`undefined` and functions have no JSON form: a record drops them, and everywhere else `null` takes
their place. Numbers that are not finite are `null` too.
-/

namespace StaticConfig

/-- The JSON form of a number: an integer if it is whole and safe, so that both zeros are one. -/
def Number.toJson (n : Number) : Json :=
  match n.trunc? with
  | some i => if n.isWhole && i.natAbs ≤ maxSafeInteger then .integer i else .number n
  | none => .null

namespace Value

mutual

/-- The JSON form of a value, if it has one. -/
def json? : Value → Option Json
  | .undefined | .closure .. | .method .. => none
  | .null => some .null
  | .bool value => some (.bool value)
  | .number value => some value.toJson
  | .string value => some (.string value)
  | .list _ items => some (.array (jsonItems items))
  | .record _ fields => some (.object (jsonFields fields.entries))

/-- The JSON forms of the items of a list. -/
def jsonItems : List Value → List Json
  | [] => []
  | item :: rest => item.json?.getD .null :: jsonItems rest

/-- The members for those fields that have a JSON form. -/
def jsonFields : List (String × Value) → List (String × Json)
  | [] => []
  | (key, value) :: rest =>
    match value.json? with
    | some document => (key, document) :: jsonFields rest
    | none => jsonFields rest

end

/-- The JSON form of a value. -/
def toJson (v : Value) : Json := v.json?.getD .null

end Value

end StaticConfig
