import Trigger.Expr.Eval
import Trigger.Helper.Distance
import Trigger.Value.Order

/-!
# Shapes

A shape is a trigger that is common enough to be answered straight from the data of the host: a
truth value, a comparison of the subject's health, a comparison of the distance to the closest
enemy, and what `||` and `&&` make of these.

The distance is taken from the position of the subject to the position of what `closest.enemy()`
answers.  If one of them has no position, the comparison is false.  A range looks up the enemy once.

A bound compares a distance with a limit, and it is given the square of the distance.  The squares
are compared directly unless they lie so close together that rounding could have changed their
order.  Then the root is taken.  The slack covers a few units in the last place of the squared
limit, and the numbers next to zero, where the units no longer shrink.
-/

namespace Trigger

/-! ## Distance bounds -/

/-- A comparison of a distance with a limit. -/
structure DistanceBound where
  op : BinaryOp
  limit : Float

namespace DistanceBound

/-- The distance from one to the next number. -/
def epsilon : Float := Number.rounded .positive 1 (-52)

/-- The least number with a full significand. -/
def leastNormal : Float := Number.rounded .positive 1 (-1022)

def limitSquared (b : DistanceBound) : Float := b.limit * b.limit

/-- How close the squares may come before the root is taken. -/
def slack (b : DistanceBound) : Float := b.limitSquared * 4 * epsilon + leastNormal

/-- Whether the comparison holds for the distance with the given square. -/
def holds (b : DistanceBound) (squared : Float) : Bool :=
  if b.slack < (squared - b.limitSquared).abs then
    b.op.holds (Number.order? squared b.limitSquared)
  else b.op.holds (Number.order? squared.sqrt b.limit)

end DistanceBound

/-! ## Shapes -/

/-- A trigger of a known form. -/
inductive Shape where
  | constant (value : Bool)
  /-- The health of the subject against a limit. -/
  | health (op : BinaryOp) (limit : Float)
  /-- The health of the subject against a fraction of its full health. -/
  | healthFraction (op : BinaryOp) (fraction : Float)
  /-- The distance to the closest enemy. -/
  | distance (bound : DistanceBound)
  /-- The distance to the closest enemy, between two bounds. -/
  | distanceRange (lower upper : DistanceBound)
  /-- The first shape if it is truthy, else the second. -/
  | either (left right : Shape)
  /-- The second shape if the first is truthy, else the first. -/
  | both (left right : Shape)

namespace Shape

variable {s : Type}

/-- The squared distance from the subject to the closest enemy, if both have a position. -/
def closestEnemySquared (scope : Scope s) (subject : Value) : StateM s (Option Float) := do
  match ← scope.world.position subject with
  | none => return none
  | some origin =>
    let enemy ← scope.world.callMethod (← scope.resolve "closest") "enemy" []
    return (← scope.world.position enemy).map (squaredDistance origin)

def eval (scope : Scope s) (subject : Value) : Shape → StateM s Value
  | constant value => pure (.boolean value)
  | health op limit => do
    let health ← scope.world.memberOf subject "hp"
    return .boolean (op.holds (health.compare? (.number limit)))
  | healthFraction op fraction => do
    let health ← scope.world.memberOf subject "hp"
    let full ← scope.world.memberOf subject "maxHp"
    return .boolean (op.holds (health.compare? (.number (full.toNumber * fraction))))
  | distance bound => do
    return .boolean ((← closestEnemySquared scope subject).any bound.holds)
  | distanceRange lower upper => do
    return .boolean
      ((← closestEnemySquared scope subject).any fun d => lower.holds d && upper.holds d)
  | either left right => do
    let value ← left.eval scope subject
    if value.isTruthy then return value else right.eval scope subject
  | both left right => do
    let value ← left.eval scope subject
    if value.isTruthy then right.eval scope subject else return value

end Shape

end Trigger
