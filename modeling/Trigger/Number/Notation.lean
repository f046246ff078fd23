import Trigger.Number.Shortest

/-!
# Written numbers

The digits of a written number are those of its shortest decimal.  A `Style` decides the rest.

* `Style.plain` always sets the digits around the point, and leaves out a fraction of zero.
* `Style.full` does so from `10 ^ -4` to below `10 ^ 16`, and writes `.0` for a fraction of zero.
  Beyond these ends one digit stands before the point and `e` brings the power of ten.

The sign of a zero is written.  No number is `NaN`, and the infinities are `inf` and `-inf`.
-/

namespace Trigger.Number

open Float.Model.UnpackedFloat (Sign)

/-- The decisions that the shortest decimal leaves open. -/
structure Style where
  /-- Whether the digits go around the point when the first one counts `10 ^ k`. -/
  positional : Int → Bool
  /-- Whether a fraction of zero is written. -/
  keepsFraction : Bool

namespace Style

/-- The style of values and of canonical expressions. -/
def plain : Style := ⟨fun _ => true, false⟩

/-- The style of described values. -/
def full : Style := ⟨fun k => -4 ≤ k && k ≤ 15, true⟩

end Style

/-- The digits of a natural number in base ten. -/
def digitsOf (n : Nat) : List Char := Nat.toDigits 10 n

/-- The digits without the zeros at the end, and how many zeros there were. -/
def stripZeros (digits : List Char) : List Char × Nat :=
  let kept := (digits.reverse.dropWhile (· = '0')).reverse
  (kept, digits.length - kept.length)

/-- Digits with the point behind the first `places` of them. -/
def aroundPoint (style : Style) (digits : List Char) (places : Int) : List Char :=
  if places ≤ 0 then ['0', '.'] ++ List.replicate (-places).toNat '0' ++ digits
  else if digits.length ≤ places.toNat then
    digits ++ List.replicate (places.toNat - digits.length) '0'
      ++ (if style.keepsFraction then ['.', '0'] else [])
  else digits.take places.toNat ++ ['.'] ++ digits.drop places.toNat

/-- Digits with the point behind the first one and the power of ten that it counts. -/
def withPower (digits : List Char) (power : Int) : List Char :=
  let mantissa := match digits with
    | first :: second :: more => first :: '.' :: second :: more
    | few => few
  let sign := if power < 0 then ['-'] else []
  mantissa ++ ['e'] ++ sign ++ digitsOf power.natAbs

/-- A positive decimal in the given style. -/
def Decimal.write (style : Style) (d : Decimal) : List Char :=
  let (digits, zeros) := stripZeros (digitsOf d.digits)
  let places := d.power + zeros + digits.length
  if style.positional (places - 1) then aroundPoint style digits places
  else withPower digits (places - 1)

/-- What a negative sign puts in front. -/
def signText : Sign → List Char
  | .negative => ['-']
  | .positive => []

/-- A number in the given style. -/
def write (style : Style) (x : Float) : List Char :=
  match parts x with
  | .notANumber => ['N', 'a', 'N']
  | .infinity sign => signText sign ++ ['i', 'n', 'f']
  | .zero sign => signText sign ++ ['0'] ++ (if style.keepsFraction then ['.', '0'] else [])
  | .finite sign m e _ => signText sign ++ (shortest m e).write style

end Trigger.Number
