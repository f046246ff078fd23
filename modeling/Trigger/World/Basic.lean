import Trigger.Value.Coercion

/-!
# The world

A world answers for everything outside the language: calls of its functions, accesses to its
objects, and random numbers.  An answer may change the state of the world, so it is a state action.
The state is a parameter, and nothing but the answers depends on it.

Access to members is here as well.  An object has the members under its keys, an array and a string
have a length, an object of the host is asked, and every other member is absent.  A point is an
array of two numbers, or whatever has the numeric members `x` and `y`.
-/

namespace Trigger

/-- What answers for everything outside the language. -/
structure World (s : Type) where
  /-- The answer of a function to its arguments. -/
  call : Nat → List Value → StateM s Value
  member : HostObject → String → StateM s Value
  /-- The answers of an object to method calls; without them a method is a member that is called. -/
  method? : HostObject → Option (String → List Value → StateM s Value)
  /-- The next random number, from zero to below one. -/
  random : StateM s Float

namespace World

variable {s : Type}

def memberOf (w : World s) (value : Value) (name : String) : StateM s Value :=
  match value with
  | .object entries => pure ((Entries.find? name entries).getD .absent)
  | .host object => w.member object name
  | .array items => pure (if name = "length" then .number (Number.ofNat items.length) else .absent)
  | .string contents =>
    pure (if name = "length" then .number (Number.ofNat contents.length) else .absent)
  | _ => pure .absent

/-- The point that the members of a value make.  The second one is read only if the first is a
number. -/
def pointOfMembers (w : World s) (value : Value) : StateM s (Option Point) := do
  let x ← w.memberOf value "x"
  match x.number? with
  | none => pure none
  | some x =>
    let y ← w.memberOf value "y"
    pure (y.number?.map fun y => (x, y))

/-- The point that a value stands for, if it stands for one. -/
def pointOf (w : World s) (value : Value) : StateM s (Option Point) :=
  match value with
  | .array [.number x, .number y] => pure (some (x, y))
  | .object _ | .host _ => w.pointOfMembers value
  | _ => pure none

/-- The position of a unit: the point that its member `pos` stands for. -/
def position (w : World s) (unit : Value) : StateM s (Option Point) := do
  w.pointOf (← w.memberOf unit "pos")

/-- The positions of those units that have one. -/
def positions (w : World s) (units : List Value) : StateM s (List Point) := do
  return (← units.mapM w.position).filterMap id

end World

end Trigger
