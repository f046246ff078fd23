import Trigger.Context.Basic
import Trigger.Expr.Basic
import Trigger.Value.Equality
import Trigger.Value.Order
import Trigger.World.Call

/-!
# Evaluation

Evaluation never fails: what cannot be resolved, accessed or called is absent.  Everything goes from
left to right, and nothing is evaluated that the value does not need.

* `||` and `&&` answer one of their operands, and leave the right one alone when the left one
  decides.
* A chain stops at the first optional link that meets null or absent, and is absent then.
* Arguments are evaluated only for a function.  A method call on an object of the host is left to
  the object, with its arguments evaluated; on every other value it calls a member.

A `Scope` is all that evaluation knows of its surroundings: the world, and how names resolve.  A
world acts on its own state.  While a context is in use that state is a part of the live one, and
the world acts on this part and leaves the rest alone.
-/

namespace Trigger

/-- The world, acting on its part of a live state. -/
def World.inside {s : Type} (w : World s) : World (Live s) where
  call serial arguments := Live.ofWorld (w.call serial arguments)
  member object name := Live.ofWorld (w.member object name)
  method? object :=
    (w.method? object).map fun method name arguments => Live.ofWorld (method name arguments)
  random := Live.ofWorld w.random

/-- What an expression is evaluated in. -/
structure Scope (s : Type) where
  /-- What answers for functions and objects. -/
  world : World s
  /-- The value of a name. -/
  resolve : String → StateM s Value

namespace Context

variable {s : Type}

def scope (c : Context s) (w : World s) : Scope (Live s) := ⟨w.inside, c.resolve⟩

end Context

namespace Scope

variable {s : Type}

/-- The scope with a value bound to a name, before all else. -/
def bind (scope : Scope s) (name : String) (value : Value) : Scope s where
  world := scope.world
  resolve word := if word = name then pure value else scope.resolve word

/-- The answer of a value to arguments, which are evaluated only if it is a function. -/
def call (scope : Scope s) (callee : Value) (arguments : StateM s (List Value)) :
    StateM s Value :=
  match callee with
  | .function f => do scope.world.apply f (← arguments)
  | _ => pure .absent

end Scope

def Literal.value : Literal → Value
  | number value => .number value
  | string contents => .string contents
  | boolean value => .boolean value
  | null => .null
  | absent => .absent

def UnaryOp.apply : UnaryOp → Value → Value
  | not, operand => .boolean !operand.isTruthy
  | negate, operand => .number (-operand.toNumber)

namespace BinaryOp

/-- Whether the left operand decides. -/
def decidedBy : BinaryOp → Value → Bool
  | or, left => left.isTruthy
  | and, left => !left.isTruthy
  | _, _ => false

/-- The value of a binary operator that the left operand does not decide. -/
def apply : BinaryOp → Value → Value → Value
  | or, _, right => right
  | and, _, right => right
  | equal, left, right => .boolean (left.looseEquals right)
  | notEqual, left, right => .boolean !left.looseEquals right
  | less, left, right => .boolean (less.holds (left.compare? right))
  | lessEqual, left, right => .boolean (lessEqual.holds (left.compare? right))
  | greater, left, right => .boolean (greater.holds (left.compare? right))
  | greaterEqual, left, right => .boolean (greaterEqual.holds (left.compare? right))
  | add, left, right => .number (left.toNumber + right.toNumber)
  | subtract, left, right => .number (left.toNumber - right.toNumber)
  | multiply, left, right => .number (left.toNumber * right.toNumber)
  | divide, left, right => .number (left.toNumber / right.toNumber)
  | modulo, left, right => .number (Number.remainder left.toNumber right.toNumber)

end BinaryOp

namespace Expr

variable {s : Type}

mutual

def eval (scope : Scope s) : Expr → StateM s Value
  | literal value => pure value.value
  | name word => scope.resolve word
  | array items => do return .array (← evalAll scope items)
  | object entries => do return .ofEntries (← evalEntries scope entries)
  | call function arguments => do
    scope.call (← scope.resolve function) (evalAll scope arguments)
  | chain base links => do evalLinks scope (← eval scope base) links
  | unary op operand => do return op.apply (← eval scope operand)
  | binary op left right => do
    let l ← eval scope left
    if op.decidedBy l then pure l
    else return op.apply l (← eval scope right)
termination_by structural x => x

def evalAll (scope : Scope s) : List Expr → StateM s (List Value)
  | [] => pure []
  | e :: es => do
    let v ← eval scope e
    return v :: (← evalAll scope es)
termination_by structural x => x

/-- The values of entries, under their keys. -/
def evalEntries (scope : Scope s) : List (String × Expr) → StateM s (List (String × Value))
  | [] => pure []
  | (key, e) :: entries => do
    let v ← eval scope e
    return (key, v) :: (← evalEntries scope entries)
termination_by structural x => x

/-- The value at the end of links. -/
def evalLinks (scope : Scope s) (value : Value) : List Link → StateM s Value
  | [] => pure value
  | link :: links =>
    if link.isOptional && value.isNullish then pure .absent
    else do evalLinks scope (← evalLink scope value link) links
termination_by structural x => x

def evalLink (scope : Scope s) (value : Value) : Link → StateM s Value
  | .member word _ => scope.world.memberOf value word
  | .method word arguments _ =>
    match value with
    | .host receiver => do
      scope.world.callMethod (.host receiver) word (← evalAll scope arguments)
    | other => do
      scope.call (← scope.world.memberOf other word) (evalAll scope arguments)
  | .index key => do scope.world.index value (← eval scope key)
termination_by structural x => x

end

end Expr

end Trigger
