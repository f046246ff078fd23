import Trigger.Value.Coercion

/-!
# Functions of numbers

The functions of the `math` group.  An argument is taken by its number, and a missing one is no
number.  `min` and `max` take any number of arguments, and one that is no number makes the result no
number.  `round` takes a half upwards.
-/

namespace Trigger

def argument (arguments : List Value) (index : Nat) : Float :=
  (arguments[index]?.map Value.toNumber).getD Number.nan

namespace MathFunction

/-- The functions of the group. -/
def all : List MathFunction := [abs, floor, ceil, round, sqrt, min, max, pow, clamp]

def name : MathFunction → String
  | abs => "abs"
  | floor => "floor"
  | ceil => "ceil"
  | round => "round"
  | sqrt => "sqrt"
  | min => "min"
  | max => "max"
  | pow => "pow"
  | clamp => "clamp"

/-- The number that a choice between two leaves of several; no number as soon as one is none. -/
def pick (choose : Float → Float → Float) (start : Float) (numbers : List Float) : Float :=
  numbers.foldl (fun best n => if best.isNaN || n.isNaN then Number.nan else choose best n) start

def apply (f : MathFunction) (arguments : List Value) : Float :=
  let first := argument arguments 0
  match f with
  | abs => first.abs
  | floor => Number.floor first
  | ceil => Number.ceiling first
  | round => Number.floor (first + 0.5)
  | sqrt => first.sqrt
  | min => pick Number.smaller Number.infinity (arguments.map Value.toNumber)
  | max => pick Number.larger (-Number.infinity) (arguments.map Value.toNumber)
  | pow => first.pow (argument arguments 1)
  | clamp => Number.smaller (Number.larger first (argument arguments 1)) (argument arguments 2)

end MathFunction

end Trigger
