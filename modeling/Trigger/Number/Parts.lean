/-!
# The parts of a number

Numbers are binary64 floats.  The operations of this folder that are not arithmetic look at a number
through its parts: an infinity, no number, a zero, or a sign with a significand `m` and a power `e`
that stand for `m * 2 ^ e`.

* `rounded` is the number nearest to a signed `m * 2 ^ e`, and `ofNat` the one nearest to a natural
  number.
* `floor` and `ceiling` round to a whole number, and keep the sign of a zero.
* `whole?` reads a number that is whole and not negative.
* `remainder` is the exact remainder of the quotient rounded towards zero.
* `order?` compares two numbers; nothing compares with no number.
-/

namespace Trigger.Number

open Float.Model (UnpackedFloat Format)
open Float.Model.UnpackedFloat (Sign)

/-- The parts of a number. -/
def parts (x : Float) : UnpackedFloat := x.toModel.unpack

/-- The number with the given parts. -/
def ofParts (p : UnpackedFloat) : Float := Float.ofModel (Float.Model.pack p)

/-- The value that is no number. -/
def nan : Float := ofParts .notANumber

/-- The number above all others. -/
def infinity : Float := ofParts (.infinity .positive)

/-- A zero of either sign. -/
def zero (sign : Sign) : Float := ofParts (.zero sign)

/-- The number nearest to `significand * 2 ^ power` with the given sign. -/
def rounded (sign : Sign) (significand : Nat) (power : Int) : Float :=
  if significand = 0 then zero sign
  else ofParts (UnpackedFloat.round Format.binary64 sign significand power)

/-- The number nearest to a natural number. -/
def ofNat (n : Nat) : Float := rounded .positive n 0

def isNegative : Sign → Bool
  | .negative => true
  | .positive => false

/-- The greatest whole number that is not above the number. -/
def floor (x : Float) : Float :=
  match parts x with
  | .finite sign m e _ =>
    if 0 ≤ e then x
    else
      let unit := Nat.pow 2 (-e).toNat
      if isNegative sign && m % unit != 0 then rounded sign (m / unit + 1) 0
      else rounded sign (m / unit) 0
  | _ => x

/-- The least whole number that is not below the number. -/
def ceiling (x : Float) : Float := -floor (-x)

/-- The natural number that the number is, if it is one.  Both zeros are. -/
def whole? (x : Float) : Option Nat :=
  match parts x with
  | .zero _ => some 0
  | .finite .positive m e _ =>
    if 0 ≤ e then some (m * Nat.pow 2 e.toNat)
    else if m % Nat.pow 2 (-e).toNat = 0 then some (m / Nat.pow 2 (-e).toNat)
    else none
  | _ => none

/-- What is left of `x` when the whole part of `x / y` times `y` is taken away.  It has the sign of
`x`. -/
def remainder (x y : Float) : Float :=
  match parts x, parts y with
  | .finite sign m e _, .finite _ n f _ =>
    let low := min e f
    rounded sign ((m <<< (e - low).toNat) % (n <<< (f - low).toNat)) low
  | .zero _, .finite .. => x
  | .zero _, .infinity _ => x
  | .finite .., .infinity _ => x
  | _, _ => nan

/-- How two numbers compare, if both are numbers.  The zeros are equal. -/
def order? (x y : Float) : Option Ordering :=
  if x < y then some .lt
  else if y < x then some .gt
  else if x == y then some .eq
  else none

/-- The greater of two numbers; a side that is no number gives way to the other. -/
def larger (x y : Float) : Float :=
  if x.isNaN then y else if y.isNaN then x else if x < y then y else x

/-- The lesser of two numbers; a side that is no number gives way to the other. -/
def smaller (x y : Float) : Float :=
  if x.isNaN then y else if y.isNaN then x else if y < x then y else x

end Trigger.Number
