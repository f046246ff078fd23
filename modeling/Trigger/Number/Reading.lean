import Trigger.Number.Parts

/-!
# Reading a number

A written number is a sign, digits with at most one point among or around them, and a power of ten
behind `e` or `E`.  The sign and the power may be missing, and so may the digits on one side of the
point, but not on both.  What it stands for is the nearest number, an infinity if it is too large.
-/

namespace Trigger.Number

open Float.Model.UnpackedFloat (Sign)

def digitValue (c : Char) : Nat := c.toNat - '0'.toNat

/-- The natural number that digits write in base ten. -/
def ofDigits (digits : List Char) : Nat := digits.foldl (fun n c => 10 * n + digitValue c) 0

/-- A bound on powers of ten.  A positive natural number times a greater power is infinite, and one
divided by a greater power is zero, unless its own bits make up for it. -/
def powerLimit : Nat := 2048

/-- The number nearest to the quotient of two natural numbers.  The quotient is taken to more than
sixty bits, and a last bit tells whether anything is left, so it rounds as the exact one does. -/
def quotient (dividend divisor : Nat) : Float :=
  let shift := divisor.log2 + 64
  let scaled := dividend <<< shift
  let rest := if scaled % divisor = 0 then 0 else 1
  rounded .positive (2 * (scaled / divisor) + rest) (-(shift + 1 : Nat))

/-- The number nearest to `digits * 10 ^ power`. -/
def decimal (digits : Nat) (power : Int) : Float :=
  if digits = 0 then zero .positive
  else if powerLimit < power then infinity
  else if power < -(powerLimit + digits.log2 : Nat) then zero .positive
  else if 0 ≤ power then ofNat (digits * Nat.pow 10 power.toNat)
  else quotient digits (Nat.pow 10 (-power).toNat)

/-- The number that the digits before and behind a point write. -/
def ofFixed (whole fraction : List Char) (power : Int) : Float :=
  decimal (ofDigits (whole ++ fraction)) (power - fraction.length)

/-- The digits in front of a text, and the rest. -/
def spanDigits (cs : List Char) : List Char × List Char :=
  (cs.takeWhile Char.isDigit, cs.dropWhile Char.isDigit)

/-- The sign in front of a text, if there is one, and the rest. -/
def readSign : List Char → Sign × List Char
  | '-' :: cs => (.negative, cs)
  | '+' :: cs => (.positive, cs)
  | cs => (.positive, cs)

/-- The power of ten that a text consists of: none is zero, and a mark needs digits behind it. -/
def readPower? : List Char → Option Int
  | [] => some 0
  | c :: cs =>
    if c = 'e' || c = 'E' then
      let (sign, cs) := readSign cs
      let (digits, rest) := spanDigits cs
      if digits.isEmpty || !rest.isEmpty then none else some (sign.apply (ofDigits digits))
    else none

/-- The digits behind a point in front of a text, and the rest; without a point there are none. -/
def readFraction : List Char → List Char × List Char
  | '.' :: cs => spanDigits cs
  | cs => ([], cs)

/-- The number with the given sign and size. -/
def signed : Sign → Float → Float
  | .negative, x => -x
  | .positive, x => x

/-- The number that a text writes, if it is a written number. -/
def ofText? (cs : List Char) : Option Float :=
  let (sign, cs) := readSign cs
  let (whole, cs) := spanDigits cs
  let (fraction, cs) := readFraction cs
  if whole.isEmpty && fraction.isEmpty then none
  else (readPower? cs).map fun power => signed sign (ofFixed whole fraction power)

end Trigger.Number
