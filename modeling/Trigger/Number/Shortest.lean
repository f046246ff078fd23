import Trigger.Number.Parts

/-!
# The shortest decimal of a number

A number stands for every real that rounds to it.  These reals form an interval around it, which
reaches half way to each neighbour; its ends belong to it when the significand is even.  The
shortest decimal of the number is the one in the interval with the fewest digits.  Where two of that
length lie in the interval the nearer one is taken, and the upper one if they are equally near.

The search looks at one decimal grid after the other, from one digit up.  On each grid only the two
points around the number can be the nearest, so only these are tested.  All tests compare natural
numbers: the number, the ends of its interval and the grid are put over one denominator.  Seventeen
digits always suffice.
-/

namespace Trigger.Number

/-- A decimal `digits * 10 ^ power`. -/
structure Decimal where
  /-- The digits, as one natural number. -/
  digits : Nat
  /-- The power of ten. -/
  power : Int
deriving DecidableEq, Repr

/-- A positive number with its interval, over the denominator `scale`. -/
structure Interval where
  /-- The numerator of the number. -/
  value : Nat
  /-- The numerator of the lower end. -/
  low : Nat
  /-- The numerator of the upper end. -/
  high : Nat
  /-- The common denominator. -/
  scale : Nat
  /-- Whether the ends belong to the interval. -/
  closed : Bool

namespace Interval

/-- The interval of `significand * 2 ^ power`.  Below the least significand of a power the numbers
lie twice as close, so the lower end is half as far. -/
def ofSignificand (significand : Nat) (power : Int) : Interval :=
  let near := if significand = Nat.pow 2 52 && -1074 < power then 1 else 2
  let up := Nat.pow 2 (power - 2).toNat
  { value := 4 * significand * up
    low := (4 * significand - near) * up
    high := (4 * significand + 2) * up
    scale := Nat.pow 2 (2 - power).toNat
    closed := significand % 2 = 0 }

/-- Whether the decimal lies in the interval when both are taken over the scale. -/
def holds (i : Interval) (point : Nat) : Bool :=
  if i.closed then i.low ≤ point && point ≤ i.high else i.low < point && point < i.high

/-- The interval in the unit `10 ^ power`. -/
def inUnit (i : Interval) (power : Int) : Interval :=
  let up := Nat.pow 10 (-power).toNat
  { i with
    value := i.value * up
    low := i.low * up
    high := i.high * up
    scale := i.scale * Nat.pow 10 power.toNat }

/-- The grid point of a unit that stands for the number, if one of the two around it does. -/
def gridPoint? (i : Interval) : Option Nat :=
  let below := i.value / i.scale
  let rest := i.value % i.scale
  match i.holds (below * i.scale), i.holds ((below + 1) * i.scale) with
  | true, true => some (if 2 * rest < i.scale then below else below + 1)
  | true, false => some below
  | false, true => some (below + 1)
  | false, false => none

/-- The number of decimal places to shift until `value` reaches `scale`, counted from `shift`. -/
def leadingZeros (scale : Nat) : Nat → Nat → Nat → Nat
  | 0, shift, _ => shift
  | fuel + 1, shift, value =>
    if scale ≤ value then shift else leadingZeros scale fuel (shift + 1) (value * 10)

/-- The least `k` with the number below `10 ^ k`. -/
def magnitude (i : Interval) : Int :=
  if i.scale ≤ i.value then (Nat.toDigits 10 (i.value / i.scale)).length
  else 1 - (leadingZeros i.scale 400 0 i.value : Int)

/-- The first grid from `count` digits on with a point that stands for the number. -/
def search (i : Interval) (magnitude : Int) : Nat → Nat → Decimal
  | 0, count => ⟨(i.inUnit (magnitude - count)).value / (i.inUnit (magnitude - count)).scale,
      magnitude - count⟩
  | fuel + 1, count =>
    match (i.inUnit (magnitude - count)).gridPoint? with
    | some digits => ⟨digits, magnitude - count⟩
    | none => search i magnitude fuel (count + 1)

end Interval

/-- The shortest decimal of the number `significand * 2 ^ power`. -/
def shortest (significand : Nat) (power : Int) : Decimal :=
  let i := Interval.ofSignificand significand power
  i.search i.magnitude 17 1

end Trigger.Number
