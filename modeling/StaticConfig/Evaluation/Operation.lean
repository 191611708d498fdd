import StaticConfig.Evaluation.Step
import StaticConfig.Number.Arithmetic
import StaticConfig.Text.Case
import StaticConfig.Value.Equality

/-!
# Operations on values

Unary operators, the methods of strings, and what the methods of lists make of the results of their
callbacks.
-/

namespace StaticConfig

/-! ### Operators -/

/-- The binary operators of the sub-language. -/
inductive BinaryForm
  /-- Both operands are evaluated and compared. -/
  | strictEqual
  /-- The right operand is evaluated only if the left one does not count as true. -/
  | logicalOr
deriving DecidableEq

/-- The supported form of a binary operator. -/
def BinaryOp.form : BinaryOp → Except Fault BinaryForm
  | .strictEqual => .ok .strictEqual
  | .logicalOr => .ok .logicalOr
  | op => .error (.unsupportedOperator op.text)

/-- Whether a unary operator belongs to the sub-language. -/
def UnaryOp.isSupported : UnaryOp → Bool
  | .minus | .plus | .complement | .not => true
  | _ => false

/-- Applies a unary operator. -/
def UnaryOp.apply (op : UnaryOp) (operand : Value) : Except Fault Value :=
  match op with
  | .minus => .ok (.number operand.toNumber.neg)
  | .plus => .ok (.number operand.toNumber)
  | .complement => .ok (.number (.ofInt (~~~operand.toNumber.toInt32).toInt))
  | .not => .ok (.bool !operand.isTruthy)
  | _ => .error (.unsupportedOperator op.text)

/-! ### Methods of strings -/

/-- A bound of a slice of something of the given length: the start for what is not a number, and
`default` if it is missing. A length beyond `2 ^ 53` may round up, and then the bound is the length
itself. -/
def sliceBound (arg : Option Value) (length default : Nat) : Nat :=
  match arg with
  | none | some .undefined => default
  | some value =>
    match value.toNumber with
    | .nan => 0
    | n => min ((n.position length).trunc?.getD 0).toNat length

/-- The characters between two bounds; none if the bounds cross. -/
def sliceText (text : List Char) (args : List Value) : List Char :=
  let start := sliceBound args[0]? text.length 0
  let stop := sliceBound args[1]? text.length text.length
  (text.take stop).drop start

/-- Applies a method to a string. -/
def Method.applyToString (m : Method) (text : String) (args : List Value) : Except Fault Value :=
  match m with
  | .toUpperCase => .ok (.string (Text.toUpper text))
  | .toLowerCase => .ok (.string (Text.toLower text))
  | .slice => .ok (.string (String.ofList (sliceText text.toList args)))
  | _ => .error (.unsupportedMethod m.name "string")

/-! ### Methods of lists -/

/-- A pending callback: an item of a list and the call of the callback on it. -/
abbrev Pending : Type := Value × Eval Value

namespace Pending

/-- Whether some callback gives a value that counts as true; the ones after it are not called. -/
def any : List Pending → Eval Bool
  | [] => return false
  | (_, call) :: rest => do
    if (← call).isTruthy then return true else any rest

/-- The first item on which the callback gives a value that counts as true. -/
def first : List Pending → Eval Value
  | [] => return .undefined
  | (item, call) :: rest => do
    if (← call).isTruthy then return item else first rest

/-- The items on which the callback gives a value that counts as true. -/
def kept : List Pending → Eval (List Value)
  | [] => return []
  | (item, call) :: rest => do
    if (← call).isTruthy then return item :: (← kept rest) else kept rest

/-- The results of the callback. -/
def results (calls : List Pending) : Eval (List Value) := calls.mapM (·.2)

/-- The items of a list result; any other result stands for itself. -/
def spliced : Value → List Value
  | .list _ items => items
  | value => [value]

end Pending

/-- What a list method makes of its callbacks. -/
def Method.applyToCallbacks (m : Method) (calls : List Pending) : Eval Value :=
  match m with
  | .map => do Eval.newList (← Pending.results calls)
  | .flatMap => do Eval.newList ((← Pending.results calls).flatMap Pending.spliced)
  | .some => return .bool (← Pending.any calls)
  | .find => Pending.first calls
  | .filter => do Eval.newList (← Pending.kept calls)
  | _ => Eval.fail (.unsupportedMethod m.name "list")

end StaticConfig
