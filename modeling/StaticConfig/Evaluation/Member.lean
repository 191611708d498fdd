import StaticConfig.Fault
import StaticConfig.Value.Basic

/-!
# Members of values

Which members a value has, and what reading one gives: an allowed method bound to its receiver, an
item or a character by index, a field, or nothing. A member that is callable in the language but
not on the allow-list is a fault, so evaluated code reaches exactly the methods listed here.
-/

namespace StaticConfig

/-! ### The allow-list -/

/-- The allowed methods by type of receiver. -/
def allowedMethods : List (String × List Method) :=
  [("list", [.map, .flatMap, .includes, .some, .find, .filter]),
    ("string", [.slice, .toUpperCase, .toLowerCase])]

/-- The method of that name that is allowed on the receiver. -/
def Value.allowedMethod? (receiver : Value) (name : String) : Option Method :=
  (allowedMethods.lookup receiver.typeName).bind fun methods => methods.find? (·.name == name)

/-! ### Callable members of the language -/

/-- Callable members that every value has. -/
def objectMembers : List String :=
  ["constructor", "hasOwnProperty", "isPrototypeOf", "propertyIsEnumerable", "toLocaleString",
    "toString", "valueOf", "__defineGetter__", "__defineSetter__", "__lookupGetter__",
    "__lookupSetter__"]

/-- Callable members of lists beyond the allowed ones. -/
def listMembers : List String :=
  ["at", "concat", "copyWithin", "entries", "every", "fill", "findIndex", "findLast",
    "findLastIndex", "flat", "forEach", "indexOf", "join", "keys", "lastIndexOf", "pop", "push",
    "reduce", "reduceRight", "reverse", "shift", "slice", "sort", "splice", "toReversed",
    "toSorted", "toSpliced", "unshift", "values", "with"]

/-- Callable members of strings beyond the allowed ones. -/
def stringMembers : List String :=
  ["at", "charAt", "charCodeAt", "codePointAt", "concat", "endsWith", "includes", "indexOf",
    "lastIndexOf", "localeCompare", "match", "matchAll", "normalize", "padEnd", "padStart",
    "repeat", "replace", "replaceAll", "search", "split", "startsWith", "substring", "substr",
    "toLocaleLowerCase", "toLocaleUpperCase", "trim", "trimEnd", "trimStart"]

/-- Callable members of numbers. -/
def numberMembers : List String := ["toExponential", "toFixed", "toPrecision"]

/-- Callable members of functions. -/
def functionMembers : List String := ["apply", "bind", "call"]

/-- Whether the language gives values of the receiver's type a callable member of that name. -/
def Value.hasCallableMember (receiver : Value) (name : String) : Bool :=
  let own :=
    match receiver with
    | .list .. => listMembers
    | .string _ => stringMembers
    | .number _ => numberMembers
    | .closure .. | .method .. => functionMembers
    | _ => []
  own.contains name || objectMembers.contains name

/-! ### Indices -/

/-- The index that a name stands for: decimal digits without leading zeros, below `2 ^ 64`. -/
def arrayIndex? (name : String) : Option Nat :=
  match readDigits? 10 name.toList with
  | some n => if n < Nat.pow 2 64 ∧ Nat.toDigits 10 n = name.toList then some n else none
  | none => none

/-! ### Reading a member -/

/-- What a member read finds. -/
inductive Found
  /-- A value that is there already. -/
  | value (value : Value)
  /-- A method, still to be bound to the receiver. -/
  | allowed (method : Method)

/-- The member of a value under a name. -/
def Value.member (target : Value) (name : String) : Except Fault Found :=
  let missing : Except Fault Found :=
    if target.hasCallableMember name then .error (.unsupportedMethod name target.typeName)
    else .ok (.value .undefined)
  match target with
  | .undefined | .null => .error (.typeMismatch "object" target.typeName)
  | .list _ items =>
    match target.allowedMethod? name with
    | some found => .ok (.allowed found)
    | none =>
      if name = "length" then .ok (.value (.number (.ofNat items.length)))
      else match arrayIndex? name with
        | some index => .ok (.value (items[index]?.getD .undefined))
        | none => missing
  | .string text =>
    match target.allowedMethod? name with
    | some found => .ok (.allowed found)
    | none =>
      if name = "length" then .ok (.value (.number (.ofNat text.toList.length)))
      else match arrayIndex? name with
        | some index =>
          match text.toList[index]? with
          | some c => .ok (.value (.string (String.singleton c)))
          | none => .ok (.value .undefined)
        | none => missing
  | .record _ fields =>
    match fields.get? name with
    | some field =>
      if field.isCallable then .error (.unsupportedMethod name "record") else .ok (.value field)
    | none => missing
  | _ => missing

end StaticConfig
