import Trigger.Expr.Operator
import Trigger.Value.Coercion

/-!
# Order

Two strings compare by their characters, in the order of the code points.  All other pairs compare
by their numbers.  A pair in which a side has no number does not compare, and none of the four
ordering operators holds for it.
-/

namespace Trigger

namespace Value

/-- How two strings compare. -/
def compareStrings (a b : String) : Ordering :=
  if a < b then .lt else if a = b then .eq else .gt

/-- How two values compare, if they do. -/
def compare? : Value → Value → Option Ordering
  | string a, string b => some (compareStrings a b)
  | a, b => Number.order? a.toNumber b.toNumber

end Value

namespace BinaryOp

def isOrdering : BinaryOp → Bool
  | less | lessEqual | greater | greaterEqual => true
  | _ => false

/-- Whether an ordering operator holds for operands that compare as given.  The other operators hold
for none. -/
def holds : BinaryOp → Option Ordering → Bool
  | less, some o => o = .lt
  | lessEqual, some o => o != .gt
  | greater, some o => o = .gt
  | greaterEqual, some o => o != .lt
  | _, _ => false

end BinaryOp

end Trigger
