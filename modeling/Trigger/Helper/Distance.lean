import Trigger.Helper.Math
import Trigger.World.Basic

/-!
# Distances

The distance of two points, by its square.  The helper takes one point and measures from the origin,
or two points and measures between them.  Units within a radius are counted on the squares.
-/

namespace Trigger

/-- The square of the distance of two points. -/
def squaredDistance (a b : Point) : Float :=
  let dx := a.1 - b.1
  let dy := a.2 - b.2
  dx * dx + dy * dy

namespace World

variable {s : Type}

/-- The squared distance that the arguments ask for.  A point that is missing leaves none. -/
def squaredBetween (w : World s) (origin : Option Point) :
    List Value → StateM s (Option Float)
  | [] => pure none
  | [target] => do
    let b ← w.pointOf target
    pure (do return squaredDistance (← origin) (← b))
  | first :: second :: _ => do
    let a ← w.pointOf first
    let b ← w.pointOf second
    pure (do return squaredDistance (← a) (← b))

/-- How many units lie within a radius of the origin, the circle included.  Without an origin there
are none, and no unit is looked at. -/
def countWithin (w : World s) (units : List Value) (origin : Option Point) (radius : Float) :
    StateM s Nat :=
  match origin with
  | none => pure 0
  | some origin => do
    let points ← w.positions units
    return points.countP fun p => squaredDistance origin p ≤ radius * radius

end World

end Trigger
