import Trigger.Context.Basic
import Trigger.Helper.Roster

/-!
# The standard helpers

The groups that a host composes into a context, in this order.

* `subject`: the subject as `self`, and its health as a part of the full one as `hpFraction`.
* `math`: the functions of numbers and `PI`.
* `distance`: `distance` and `distanceSq`, from the position of the subject or between two points.
* `closest`, `weakest`, `healthiest`: `enemy()` and `ally()`, the best unit of a side.  These groups
  are lazy, since they look at every unit.
* `centroid`: `enemies()` and `allies()`, the mean positions.  This group is lazy, too.
* `count`: `enemies()`, `allies()`, `enemiesWithin(r)` and `alliesWithin(r)`.
* `random`: `random()`.
-/

namespace Trigger

namespace Value

/-- A function of the standard helpers. -/
def helper (group name : String) (task : Task) : Value := .function (.helper group name task)

/-- An object with functions of one group. -/
def helpers (group : String) (tasks : List (String × Task)) : Value :=
  ofEntries (tasks.map fun (name, task) => (name, helper group name task))

end Value

namespace Helper

variable {s : Type}

def subject (w : World s) (unit : Value) : StateM s Bindings := do
  let health ← w.memberOf unit "hp"
  let full ← w.memberOf unit "maxHp"
  return Entries.ofList
    [("self", unit), ("hpFraction", .number (health.toNumber / full.toNumber))]

/-- The ratio of a circle's circumference to its diameter. -/
def pi : Float := Number.decimal 3141592653589793 (-15)

/-- The functions of numbers. -/
def math : Bindings :=
  Entries.ofList <|
    (MathFunction.all.map fun f => (f.name, .helper "math" f.name (.math f)))
      ++ [("PI", .number pi)]

def distanceFrom (origin : Option Point) : Bindings :=
  Entries.ofList
    [("distance", .helper "distance" "distance" (.distance origin)),
     ("distanceSq", .helper "distance" "distanceSq" (.distanceSquared origin))]

/-- The distances from the position of the subject. -/
def distance (w : World s) (unit : Value) : StateM s Bindings := do
  return distanceFrom (← w.position unit)

/-- The best units of both sides. -/
def finder (w : World s) (roster : Roster) (ranking : Ranking) (origin : Option Point) :
    StateM s Bindings := do
  let enemy ← w.find ranking origin roster.enemies
  let ally ← w.find ranking origin roster.allies
  return [(ranking.name, .helpers ranking.name [("enemy", .answer enemy), ("ally", .answer ally)])]

/-- The mean positions of both sides. -/
def centroid (w : World s) (roster : Roster) : StateM s Bindings := do
  let enemies ← w.centroid roster.enemies
  let allies ← w.centroid roster.allies
  return [("centroid",
    .helpers "centroid" [("enemies", .answer enemies), ("allies", .answer allies)])]

/-- The number of units on each side, all of them or those within a radius. -/
def count (roster : Roster) (origin : Option Point) : Bindings :=
  let all (side : Side) : Task := .answer (.number (Number.ofNat (roster.side side).length))
  let within (side : Side) : Task := .countWithin (roster.side side) origin
  [("count", .helpers "count"
    [("enemies", all .enemies), ("allies", all .allies),
     ("enemiesWithin", within .enemies), ("alliesWithin", within .allies)])]

/-- The source of random numbers. -/
def random : Bindings := [("random", .helper "random" "random" .random)]

end Helper

namespace Context

variable {s : Type}

/-- The context of the standard helpers around a subject.  Building it reads the position of the
subject, its health, and its position once more for the distances. -/
def standard (w : World s) (subject : Value) (roster : Roster) : StateM s (Context s) := do
  let origin ← w.position subject
  let subjectBindings ← Helper.subject w subject
  let distanceBindings ← Helper.distance w subject
  let context : Context s :=
    (((empty.addHelpers "subject" subjectBindings).addHelpers "math" Helper.math).addHelpers
      "distance" distanceBindings)
  let context := Ranking.all.foldl (fun context ranking =>
    context.addLazyHelpers ranking.name [ranking.name]
      (Helper.finder w roster ranking origin)) context
  let context := context.addLazyHelpers "centroid" ["centroid"] (Helper.centroid w roster)
  return (context.addHelpers "count" (Helper.count roster origin)).addHelpers "random" Helper.random

end Context

end Trigger
