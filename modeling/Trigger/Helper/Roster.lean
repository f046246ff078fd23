import Trigger.World.Call

/-!
# Units around the subject

A roster lists the units that the subject sees, by side.  A finder takes the best unit of a side:
the closest to the origin, or the one with the least or the most health.  Each of these gives a unit
a key, and the unit with the least key is the best, the first one where several have it.  A unit
without a key, or with one that is no number, does not qualify.
-/

namespace Trigger

/-- The two sides. -/
inductive Side where
  | allies | enemies
deriving DecidableEq, Repr

/-- The units that the subject sees. -/
structure Roster where
  /-- The units on its side. -/
  allies : List Value
  /-- The units on the other side. -/
  enemies : List Value

namespace Roster

/-- The units of a side. -/
def side (r : Roster) : Side → List Value
  | .allies => r.allies
  | .enemies => r.enemies

end Roster

/-- What makes a unit the best. -/
inductive Ranking where
  | closest | weakest | healthiest
deriving DecidableEq, Repr

namespace Ranking

def all : List Ranking := [closest, weakest, healthiest]

/-- The name of the group that finds by a ranking. -/
def name : Ranking → String
  | closest => "closest"
  | weakest => "weakest"
  | healthiest => "healthiest"

variable {s : Type}

/-- The key of a unit, if it has one.  Without an origin no unit is close, and none is looked at. -/
def rawKey (w : World s) (origin : Option Point) (unit : Value) :
    Ranking → StateM s (Option Float)
  | closest =>
    match origin with
    | none => pure none
    | some origin => do return (← w.position unit).map (squaredDistance origin)
  | weakest => do return (← w.memberOf unit "hp").number?
  | healthiest => do return (← w.memberOf unit "hp").number?.map (- ·)

/-- The key of a unit that qualifies. -/
def key (w : World s) (ranking : Ranking) (origin : Option Point) (unit : Value) :
    StateM s (Option Float) := do
  return (← ranking.rawKey w origin unit).filter (!·.isNaN)

end Ranking

/-- The first one with the least key among the best candidate so far and further ones. -/
def leastFrom {α : Type} (best : α × Float) : List (α × Float) → α × Float
  | [] => best
  | candidate :: more => leastFrom (if candidate.2 < best.2 then candidate else best) more

/-- The first candidate with the least key. -/
def least? {α : Type} : List (α × Float) → Option α
  | [] => none
  | candidate :: more => some (leastFrom candidate more).1

namespace World

variable {s : Type}

/-- The units that qualify, with their keys. -/
def candidates (w : World s) (ranking : Ranking) (origin : Option Point) (units : List Value) :
    StateM s (List (Value × Float)) := do
  let keyed ← units.mapM fun unit => do return (unit, ← ranking.key w origin unit)
  return keyed.filterMap fun (unit, key) => key.map fun key => (unit, key)

/-- The best unit, null if none qualifies. -/
def find (w : World s) (ranking : Ranking) (origin : Option Point) (units : List Value) :
    StateM s Value := do
  return (least? (← w.candidates ranking origin units)).getD .null

def mean? : List Point → Option Point
  | [] => none
  | points =>
    let n := Number.ofNat points.length
    let sum := points.foldl (fun sum p => (sum.1 + p.1, sum.2 + p.2)) ((0, 0) : Point)
    some (sum.1 / n, sum.2 / n)

/-- The mean position of the units that have one, null if none has. -/
def centroid (w : World s) (units : List Value) : StateM s Value := do
  match mean? (← w.positions units) with
  | some p => return .point p
  | none => return .null

end World

end Trigger
