import Trigger.Number.Reading
import Trigger.Text.Blank
import Trigger.Value.Basic

/-!
# Coercions

Every value counts as true or as false, and every value has a number, which may be no number.  A
string has the number that it writes, without the blanks around it.  The blank string has zero, and
the one word among the numbers is `Infinity`, with at most one sign.
-/

namespace Trigger.Value

def typeName : Value → String
  | number _ => "number"
  | string _ => "string"
  | boolean _ => "boolean"
  | null => "null"
  | absent => "undefined"
  | array _ => "array"
  | object _ => "object"
  | function _ => "function"
  | host h => h.typeName

def isAbsent : Value → Bool
  | absent => true
  | _ => false

/-- Whether the value is null or absent.  An optional access stops at these. -/
def isNullish : Value → Bool
  | null | absent => true
  | _ => false

/-- Whether the value is a number, a string or a truth value. -/
def isScalar : Value → Bool
  | number _ | string _ | boolean _ => true
  | _ => false

/-- Whether the value counts as true. -/
def isTruthy : Value → Bool
  | boolean value => value
  | number value => value != 0 && !value.isNaN
  | string contents => contents != ""
  | null | absent => false
  | array _ | object _ | function _ | host _ => true

def number? : Value → Option Float
  | number value => some value
  | _ => none

def string? : Value → Option String
  | string contents => some contents
  | _ => none

/-- The word for the number above all others. -/
def infinityWord : List Char := ['I', 'n', 'f', 'i', 'n', 'i', 't', 'y']

/-- The number that a string has. -/
def numberOfText (cs : List Char) : Float :=
  let trimmed := Text.trim cs
  let (sign, unsigned) := Number.readSign trimmed
  if trimmed.isEmpty then 0
  else if unsigned = infinityWord then Number.signed sign Number.infinity
  else (Number.ofText? trimmed).getD Number.nan

/-- The number that a value has. -/
def toNumber : Value → Float
  | number value => value
  | boolean true => 1
  | boolean false | null => 0
  | string contents => numberOfText contents.toList
  | _ => Number.nan

end Trigger.Value
