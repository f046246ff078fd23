import Trigger.Token.Symbol

/-!
# Operators of expressions

What an operator token means depends on where it stands.  In front of an operand it may be a unary
operator, behind an operand a binary one, and a dot introduces an access.  The binary operators are
spread over five levels of binding strength.  All levels group to the left.
-/

namespace Trigger

/-- The unary operators. -/
inductive UnaryOp where
  | not | negate
deriving DecidableEq, Repr

/-- The binary operators. -/
inductive BinaryOp where
  | or | and
  | equal | notEqual | lessEqual | greaterEqual | less | greater
  | add | subtract
  | multiply | divide | modulo
deriving DecidableEq, Repr

/-- The levels of binding strength. -/
inductive Level where
  | logicalOr | logicalAnd | comparison | additive | multiplicative
deriving DecidableEq, Repr

namespace UnaryOp

/-- The operator that writes it. -/
def symbol : UnaryOp → Operator
  | not => .not
  | negate => .minus

end UnaryOp

namespace BinaryOp

/-- The binary operators. -/
def all : List BinaryOp :=
  [or, and, equal, notEqual, lessEqual, greaterEqual, less, greater,
   add, subtract, multiply, divide, modulo]

/-- The operator that writes it. -/
def symbol : BinaryOp → Operator
  | or => .or
  | and => .and
  | equal => .equal
  | notEqual => .notEqual
  | lessEqual => .lessEqual
  | greaterEqual => .greaterEqual
  | less => .less
  | greater => .greater
  | add => .plus
  | subtract => .minus
  | multiply => .times
  | divide => .divide
  | modulo => .modulo

def level : BinaryOp → Level
  | or => .logicalOr
  | and => .logicalAnd
  | equal | notEqual | lessEqual | greaterEqual | less | greater => .comparison
  | add | subtract => .additive
  | multiply | divide | modulo => .multiplicative

/-- Whether it may leave its right operand alone. -/
def isLogical : BinaryOp → Bool
  | or | and => true
  | _ => false

end BinaryOp

namespace Level

/-- The levels, loosest first. -/
def all : List Level := [logicalOr, logicalAnd, comparison, additive, multiplicative]

def name : Level → String
  | logicalOr => "logical or"
  | logicalAnd => "logical and"
  | comparison => "comparison"
  | additive => "additive"
  | multiplicative => "multiplicative"

/-- The binding strength of a level, from one up. -/
def strength : Level → Nat
  | logicalOr => 1
  | logicalAnd => 2
  | comparison => 3
  | additive => 4
  | multiplicative => 5

end Level

namespace Operator

/-- What the operator means in front of an operand. -/
def unary? : Operator → Option UnaryOp
  | not => some .not
  | minus => some .negate
  | _ => none

/-- What the operator means behind an operand. -/
def binary? (symbol : Operator) : Option BinaryOp := BinaryOp.all.find? (·.symbol = symbol)

/-- What the operator means behind an operand at the given level. -/
def binaryAt? (level : Level) (symbol : Operator) : Option BinaryOp :=
  symbol.binary?.filter (·.level = level)

/-- Whether an access that the operator introduces is optional, if it introduces one. -/
def access? : Operator → Option Bool
  | dot => some false
  | optionalDot => some true
  | _ => none

end Operator

end Trigger
