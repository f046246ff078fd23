import Trigger.Number.Parts
import Trigger.Value.Entries

/-!
# Values

The values of trigger expressions.  Two kinds of values lead outside the language.  A function
answers calls, and an object of the host answers accesses.  Neither is looked into, and both are
told apart by their identity alone.

A function of the standard helpers carries its task as data: what it computes, and what it knows
from the moment it was made.  Every other function is known by a serial number, as are the objects
of the host; the `World` answers for them.
-/

namespace Trigger

/-- A point of the plane. -/
abbrev Point := Float × Float

/-- An object of the host. -/
structure HostObject where
  /-- What tells it from other objects. -/
  serial : Nat
  typeName : String
deriving DecidableEq, Repr

/-- The functions of the `math` group. -/
inductive MathFunction where
  | abs | floor | ceil | round | sqrt | min | max | pow | clamp
deriving DecidableEq, Repr

/-- What tells functions apart. -/
inductive Identity where
  /-- A function of the standard helpers, by its group and its name. -/
  | helper (group name : String)
  /-- A function of the host, by its serial number. -/
  | foreign (serial : Nat)
deriving DecidableEq, Repr

mutual

/-- A value. -/
inductive Value where
  | number (value : Float)
  | string (contents : String)
  | boolean (value : Bool)
  | null
  /-- What an unresolved or failed access answers. -/
  | absent
  | array (items : List Value)
  /-- Values under keys, in the order of the keys. -/
  | object (entries : List (String × Value))
  | function (callee : Callable)
  | host (object : HostObject)

/-- A function. -/
inductive Callable where
  | foreign (serial : Nat)
  /-- A function of the standard helpers. -/
  | helper (group name : String) (task : Task)

/-- What a function of the standard helpers computes. -/
inductive Task where
  | math (f : MathFunction)
  /-- The distance from the origin to a point, or between two points. -/
  | distance (origin : Option Point)
  /-- The square of that distance. -/
  | distanceSquared (origin : Option Point)
  /-- The same answer to every call. -/
  | answer (value : Value)
  /-- The number of units within a radius of the origin. -/
  | countWithin (units : List Value) (origin : Option Point)
  | random

end

/-- What tells the function from others.  A context of the standard helpers makes each of them once,
so its group and its name tell it from the others there.  Functions that two contexts have made
under one name are not told apart. -/
def Callable.identity : Callable → Identity
  | foreign serial => .foreign serial
  | helper group name _ => .helper group name

namespace Value

/-- The object with the given entries, where a later one replaces an earlier one. -/
def ofEntries (list : List (String × Value)) : Value := object (Entries.ofList list)

/-- The object that stands for a point. -/
def point (p : Point) : Value := ofEntries [("x", number p.1), ("y", number p.2)]

end Value

end Trigger
