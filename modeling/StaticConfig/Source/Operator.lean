/-!
# Operators

Every unary and binary operator of the language, most of them only to be named when an evaluation
rejects them.
-/

namespace StaticConfig

/-- An operator between two operands. -/
inductive BinaryOp
  | equal | notEqual | strictEqual | strictNotEqual
  | less | lessEqual | greater | greaterEqual
  | shiftLeft | shiftRight | shiftRightUnsigned
  | add | subtract | multiply | divide | remainder | power
  | bitOr | bitXor | bitAnd
  | logicalOr | logicalAnd | coalesce
  | membership | instanceOf
deriving DecidableEq

namespace BinaryOp

/-- How the operator is written. -/
def text : BinaryOp → String
  | .equal => "=="
  | .notEqual => "!="
  | .strictEqual => "==="
  | .strictNotEqual => "!=="
  | .less => "<"
  | .lessEqual => "<="
  | .greater => ">"
  | .greaterEqual => ">="
  | .shiftLeft => "<<"
  | .shiftRight => ">>"
  | .shiftRightUnsigned => ">>>"
  | .add => "+"
  | .subtract => "-"
  | .multiply => "*"
  | .divide => "/"
  | .remainder => "%"
  | .power => "**"
  | .bitOr => "|"
  | .bitXor => "^"
  | .bitAnd => "&"
  | .logicalOr => "||"
  | .logicalAnd => "&&"
  | .coalesce => "??"
  | .membership => "in"
  | .instanceOf => "instanceof"

/-- Every binary operator. -/
def all : List BinaryOp :=
  [.equal, .notEqual, .strictEqual, .strictNotEqual, .less, .lessEqual, .greater, .greaterEqual,
    .shiftLeft, .shiftRight, .shiftRightUnsigned, .add, .subtract, .multiply, .divide, .remainder,
    .power, .bitOr, .bitXor, .bitAnd, .logicalOr, .logicalAnd, .coalesce, .membership, .instanceOf]

/-- The operator that is written so. -/
def ofText? (text : String) : Option BinaryOp := all.find? (·.text == text)

/-- How tightly the operator binds; a larger number binds tighter. -/
def precedence : BinaryOp → Nat
  | .coalesce => 1
  | .logicalOr => 1
  | .logicalAnd => 2
  | .bitOr => 3
  | .bitXor => 4
  | .bitAnd => 5
  | .equal | .notEqual | .strictEqual | .strictNotEqual => 6
  | .less | .lessEqual | .greater | .greaterEqual | .membership | .instanceOf => 7
  | .shiftLeft | .shiftRight | .shiftRightUnsigned => 8
  | .add | .subtract => 9
  | .multiply | .divide | .remainder => 10
  | .power => 11

end BinaryOp

/-- An operator before its operand. -/
inductive UnaryOp
  | minus | plus | not | complement | typeOf | void | delete
deriving DecidableEq

namespace UnaryOp

/-- How the operator is written. -/
def text : UnaryOp → String
  | .minus => "-"
  | .plus => "+"
  | .not => "!"
  | .complement => "~"
  | .typeOf => "typeof"
  | .void => "void"
  | .delete => "delete"

/-- Every unary operator. -/
def all : List UnaryOp := [.minus, .plus, .not, .complement, .typeOf, .void, .delete]

/-- The operator that is written so. -/
def ofText? (text : String) : Option UnaryOp := all.find? (·.text == text)

end UnaryOp

end StaticConfig
