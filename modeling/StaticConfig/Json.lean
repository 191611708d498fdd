import StaticConfig.Number.Text
import StaticConfig.Text.Quoted

/-!
# JSON documents

Documents with objects in the order of their members, and their two texts: `Json.compact` without
any blanks, and `Json.pretty` with one member or item a line, indented by two blanks a level.
-/

namespace StaticConfig

/-- A JSON document. Integers of up to 53 bits are kept apart from other numbers. -/
inductive Json
  | null
  | bool (value : Bool)
  | integer (value : Int)
  | number (value : Number)
  | string (value : String)
  | array (items : List Json)
  | object (members : List (String × Json))

namespace Json

/-- The text of a document without members or items, or of an integer. -/
def integerText : Int → List Char
  | .ofNat n => Nat.toDigits 10 n
  | .negSucc n => '-' :: Nat.toDigits 10 (n + 1)

/-! ### Compact text -/

mutual

/-- The text without blanks. -/
def compact : Json → List Char
  | .null => "null".toList
  | .bool true => "true".toList
  | .bool false => "false".toList
  | .integer value => integerText value
  | .number value => value.json
  | .string value => Text.jsonQuoted value
  | .array items => '[' :: compactItems items ++ [']']
  | .object members => '\x7b' :: compactMembers members ++ ['\x7d']

def compactItems : List Json → List Char
  | [] => []
  | [item] => item.compact
  | item :: rest => item.compact ++ ',' :: compactItems rest

def compactMembers : List (String × Json) → List Char
  | [] => []
  | [(key, value)] => Text.jsonQuoted key ++ ':' :: value.compact
  | (key, value) :: rest =>
    Text.jsonQuoted key ++ ':' :: value.compact ++ ',' :: compactMembers rest

end

/-! ### Pretty text -/

/-- A line break and the indentation of a level. -/
def newline (level : Nat) : List Char := '\n' :: List.replicate (2 * level) ' '

mutual

/-- The text at a level of indentation. Empty arrays and objects take no lines. -/
def prettyAt (level : Nat) : Json → List Char
  | .array (item :: rest) =>
    '[' :: newline (level + 1) ++ prettyAt (level + 1) item ++ prettyItems (level + 1) rest ++
      newline level ++ [']']
  | .object ((key, value) :: rest) =>
    '\x7b' :: newline (level + 1) ++ Text.jsonQuoted key ++ [':', ' '] ++
      prettyAt (level + 1) value ++ prettyMembers (level + 1) rest ++ newline level ++ ['\x7d']
  | document => document.compact

/-- The items after the first. -/
def prettyItems (level : Nat) : List Json → List Char
  | [] => []
  | item :: rest => ',' :: newline level ++ prettyAt level item ++ prettyItems level rest

/-- The members after the first. -/
def prettyMembers (level : Nat) : List (String × Json) → List Char
  | [] => []
  | (key, value) :: rest =>
    ',' :: newline level ++ Text.jsonQuoted key ++ [':', ' '] ++ prettyAt level value ++
      prettyMembers level rest

end

/-- The text with one member or item a line. -/
def pretty (document : Json) : String := String.ofList (document.prettyAt 0)

/-- The text without blanks, as a string. -/
def toText (document : Json) : String := String.ofList document.compact

end Json

end StaticConfig
