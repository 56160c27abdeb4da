/-!
# Operators

The operators of expressions, with the text and the name of each. Binary operators are listed from
the loosest to the tightest tier of precedence; `**` alone groups to the right. A unary operator
shares its text with a binary operator, a punctuator or a keyword, so it has no name of its own.
-/

namespace EcmaScript

/-- The operators `++` and `--`. -/
inductive UpdateOperator where
  | increment | decrement
  deriving DecidableEq, Repr

namespace UpdateOperator

/-- All of them, in their order. -/
def all : List UpdateOperator :=
  [.increment, .decrement]

theorem mem_all (item : UpdateOperator) : item ∈ all := by
  cases item <;> decide

/-- The text it is written with. -/
def text : UpdateOperator → String
  | .increment => "++"
  | .decrement => "--"

/-- The name its tokens are reported under. -/
def name : UpdateOperator → String
  | .increment => "Increment"
  | .decrement => "Decrement"

end UpdateOperator

/-- Plain assignment and the compound assignments. -/
inductive AssignmentOperator where
  | assign | addAssign | subtractAssign | multiplyAssign | divideAssign | moduloAssign
  | exponentiateAssign | shiftLeftAssign | shiftRightAssign | logicalShiftRightAssign
  | bitwiseAndAssign | bitwiseOrAssign | bitwiseXorAssign
  deriving DecidableEq, Repr

namespace AssignmentOperator

/-- All of them, in their order. -/
def all : List AssignmentOperator :=
  [.assign, .addAssign, .subtractAssign, .multiplyAssign, .divideAssign, .moduloAssign,
   .exponentiateAssign, .shiftLeftAssign, .shiftRightAssign, .logicalShiftRightAssign,
   .bitwiseAndAssign, .bitwiseOrAssign, .bitwiseXorAssign]

theorem mem_all (item : AssignmentOperator) : item ∈ all := by
  cases item <;> decide

/-- The text it is written with. -/
def text : AssignmentOperator → String
  | .assign => "="
  | .addAssign => "+="
  | .subtractAssign => "-="
  | .multiplyAssign => "*="
  | .divideAssign => "/="
  | .moduloAssign => "%="
  | .exponentiateAssign => "**="
  | .shiftLeftAssign => "<<="
  | .shiftRightAssign => ">>="
  | .logicalShiftRightAssign => ">>>="
  | .bitwiseAndAssign => "&="
  | .bitwiseOrAssign => "|="
  | .bitwiseXorAssign => "^="

/-- The name its tokens are reported under. -/
def name : AssignmentOperator → String
  | .assign => "Assign"
  | .addAssign => "AddAssign"
  | .subtractAssign => "SubtractAssign"
  | .multiplyAssign => "MultiplyAssign"
  | .divideAssign => "DivideAssign"
  | .moduloAssign => "ModuloAssign"
  | .exponentiateAssign => "ExponentiateAssign"
  | .shiftLeftAssign => "ShiftLeftAssign"
  | .shiftRightAssign => "ShiftRightAssign"
  | .logicalShiftRightAssign => "LogicalShiftRightAssign"
  | .bitwiseAndAssign => "BitwiseAndAssign"
  | .bitwiseOrAssign => "BitwiseOrAssign"
  | .bitwiseXorAssign => "BitwiseXorAssign"

end AssignmentOperator

/-- The operators between two operands, loosest first. -/
inductive BinaryOperator where
  | logicalOr | logicalAnd | bitwiseOr | bitwiseXor | bitwiseAnd | looseEqual | looseNotEqual
  | strictEqual | strictNotEqual | lessThan | greaterThan | lessThanOrEqual | greaterThanOrEqual
  | instanceOf | isIn | shiftLeft | shiftRight | logicalShiftRight | add | subtract | multiply
  | divide | modulo | exponentiate
  deriving DecidableEq, Repr

namespace BinaryOperator

/-- All of them, in their order. -/
def all : List BinaryOperator :=
  [.logicalOr, .logicalAnd, .bitwiseOr, .bitwiseXor, .bitwiseAnd, .looseEqual, .looseNotEqual,
   .strictEqual, .strictNotEqual, .lessThan, .greaterThan, .lessThanOrEqual, .greaterThanOrEqual,
   .instanceOf, .isIn, .shiftLeft, .shiftRight, .logicalShiftRight, .add, .subtract, .multiply,
   .divide, .modulo, .exponentiate]

theorem mem_all (item : BinaryOperator) : item ∈ all := by
  cases item <;> decide

/-- The text it is written with. -/
def text : BinaryOperator → String
  | .logicalOr => "||"
  | .logicalAnd => "&&"
  | .bitwiseOr => "|"
  | .bitwiseXor => "^"
  | .bitwiseAnd => "&"
  | .looseEqual => "=="
  | .looseNotEqual => "!="
  | .strictEqual => "==="
  | .strictNotEqual => "!=="
  | .lessThan => "<"
  | .greaterThan => ">"
  | .lessThanOrEqual => "<="
  | .greaterThanOrEqual => ">="
  | .instanceOf => "instanceof"
  | .isIn => "in"
  | .shiftLeft => "<<"
  | .shiftRight => ">>"
  | .logicalShiftRight => ">>>"
  | .add => "+"
  | .subtract => "-"
  | .multiply => "*"
  | .divide => "/"
  | .modulo => "%"
  | .exponentiate => "**"

/-- The name its tokens are reported under. -/
def name : BinaryOperator → String
  | .logicalOr => "LogicalOr"
  | .logicalAnd => "LogicalAnd"
  | .bitwiseOr => "BitwiseOr"
  | .bitwiseXor => "BitwiseXor"
  | .bitwiseAnd => "BitwiseAnd"
  | .looseEqual => "LooseEqual"
  | .looseNotEqual => "LooseNotEqual"
  | .strictEqual => "StrictEqual"
  | .strictNotEqual => "StrictNotEqual"
  | .lessThan => "LessThan"
  | .greaterThan => "GreaterThan"
  | .lessThanOrEqual => "LessThanOrEqual"
  | .greaterThanOrEqual => "GreaterThanOrEqual"
  | .instanceOf => "Instanceof"
  | .isIn => "In"
  | .shiftLeft => "ShiftLeft"
  | .shiftRight => "ShiftRight"
  | .logicalShiftRight => "LogicalShiftRight"
  | .add => "Add"
  | .subtract => "Subtract"
  | .multiply => "Multiply"
  | .divide => "Divide"
  | .modulo => "Modulo"
  | .exponentiate => "Exponentiate"

/-- The tier of precedence; an operator of a higher tier binds tighter. -/
def precedence : BinaryOperator → Nat
  | .logicalOr => 1
  | .logicalAnd => 2
  | .bitwiseOr => 3
  | .bitwiseXor => 4
  | .bitwiseAnd => 5
  | .looseEqual | .looseNotEqual | .strictEqual | .strictNotEqual => 6
  | .lessThan | .greaterThan | .lessThanOrEqual | .greaterThanOrEqual | .instanceOf | .isIn => 7
  | .shiftLeft | .shiftRight | .logicalShiftRight => 8
  | .add | .subtract => 9
  | .multiply | .divide | .modulo => 10
  | .exponentiate => 11

/-- Only `**` groups to the right. -/
def isRightAssociative (operator : BinaryOperator) : Bool :=
  operator == .exponentiate

/-- The operators whose right operand is evaluated on demand. -/
def isLogical (operator : BinaryOperator) : Bool :=
  operator == .logicalAnd || operator == .logicalOr

/-- The order of the list of operators agrees with the tiers. -/
theorem lt_of_precedence_lt {left right : BinaryOperator}
    (lower : left.precedence < right.precedence) : left.ctorIdx < right.ctorIdx := by
  cases left <;> cases right <;> first | decide | exact absurd lower (by decide)

end BinaryOperator

/-- The operators written before one operand, apart from `++` and `--`. -/
inductive UnaryOperator where
  | minus | plus | not | bitwiseNot | typeof | void | delete
  deriving DecidableEq, Repr

namespace UnaryOperator

/-- The text it is written with. -/
def text : UnaryOperator → String
  | .minus => "-"
  | .plus => "+"
  | .not => "!"
  | .bitwiseNot => "~"
  | .typeof => "typeof"
  | .void => "void"
  | .delete => "delete"

end UnaryOperator

end EcmaScript
