/-!
# Operators of the source language

Binary and assignment operators are named in diagnostics by their text.
-/

namespace BlockLowering.Source

inductive UnaryOperator where
  | plus | minus | not | bitwiseNot | typeof
deriving DecidableEq, Repr

inductive BinaryOperator where
  | add | subtract | multiply | divide | modulo
  | equal | notEqual | strictEqual | strictNotEqual
  | lessThan | lessEqual | greaterThan | greaterEqual
  | bitwiseAnd | bitwiseOr | bitwiseXor
  | leftShift | rightShift | unsignedRightShift
deriving DecidableEq, Repr

inductive LogicalOperator where
  | and | or | nullishCoalesce
deriving DecidableEq, Repr

inductive AssignmentOperator where
  | assign | addAssign | subtractAssign | multiplyAssign | divideAssign | moduloAssign
deriving DecidableEq, Repr

/-- The operator as it stands in a source text. -/
def BinaryOperator.text : BinaryOperator → String
  | add => "+"
  | subtract => "-"
  | multiply => "*"
  | divide => "/"
  | modulo => "%"
  | equal => "=="
  | notEqual => "!="
  | strictEqual => "==="
  | strictNotEqual => "!=="
  | lessThan => "<"
  | lessEqual => "<="
  | greaterThan => ">"
  | greaterEqual => ">="
  | bitwiseAnd => "&"
  | bitwiseOr => "|"
  | bitwiseXor => "^"
  | leftShift => "<<"
  | rightShift => ">>"
  | unsignedRightShift => ">>>"

/-- The operator as it stands in a source text. -/
def AssignmentOperator.text : AssignmentOperator → String
  | assign => "="
  | addAssign => "+="
  | subtractAssign => "-="
  | multiplyAssign => "*="
  | divideAssign => "/="
  | moduloAssign => "%="

namespace UnaryOperator

/-- All operators. -/
def all : List UnaryOperator :=
  [.plus, .minus, .not, .bitwiseNot, .typeof]

/-- The operator in a word. -/
def name : UnaryOperator → String
  | plus => "Plus"
  | minus => "Minus"
  | not => "Not"
  | bitwiseNot => "BitwiseNot"
  | typeof => "Typeof"

end UnaryOperator

namespace BinaryOperator

/-- All operators. -/
def all : List BinaryOperator :=
  [.add, .subtract, .multiply, .divide, .modulo, .equal, .notEqual, .strictEqual, .strictNotEqual,
    .lessThan, .lessEqual, .greaterThan, .greaterEqual, .bitwiseAnd, .bitwiseOr, .bitwiseXor,
    .leftShift, .rightShift, .unsignedRightShift]

/-- The operator in a word. -/
def name : BinaryOperator → String
  | add => "Add"
  | subtract => "Subtract"
  | multiply => "Multiply"
  | divide => "Divide"
  | modulo => "Modulo"
  | equal => "Equal"
  | notEqual => "NotEqual"
  | strictEqual => "StrictEqual"
  | strictNotEqual => "StrictNotEqual"
  | lessThan => "LessThan"
  | lessEqual => "LessEqual"
  | greaterThan => "GreaterThan"
  | greaterEqual => "GreaterEqual"
  | bitwiseAnd => "BitwiseAnd"
  | bitwiseOr => "BitwiseOr"
  | bitwiseXor => "BitwiseXor"
  | leftShift => "LeftShift"
  | rightShift => "RightShift"
  | unsignedRightShift => "UnsignedRightShift"

end BinaryOperator

namespace LogicalOperator

/-- All operators. -/
def all : List LogicalOperator :=
  [.and, .or, .nullishCoalesce]

/-- The operator in a word. -/
def name : LogicalOperator → String
  | and => "And"
  | or => "Or"
  | nullishCoalesce => "NullishCoalesce"

end LogicalOperator

namespace AssignmentOperator

/-- All operators. -/
def all : List AssignmentOperator :=
  [.assign, .addAssign, .subtractAssign, .multiplyAssign, .divideAssign, .moduloAssign]

/-- The operator in a word. -/
def name : AssignmentOperator → String
  | assign => "Assign"
  | addAssign => "AddAssign"
  | subtractAssign => "SubtractAssign"
  | multiplyAssign => "MultiplyAssign"
  | divideAssign => "DivideAssign"
  | moduloAssign => "ModuloAssign"

end AssignmentOperator

end BlockLowering.Source
