import Trigger.Value.Coercion

/-!
# Equality

There are two equalities of values.  `same` is structural: numbers by `==`, functions and objects of
the host by identity, arrays and objects part by part.  `looseEquals` is the `==` of the language.
It also equates null with absent, and numbers, strings and truth values of different kinds by their
numbers.  In both, an object has its keys in order, so the entries are compared one by one.
-/

namespace Trigger.Value

mutual

/-- Whether two values are structurally equal. -/
def same : Value → Value → Bool
  | number a, number b => a == b
  | string a, string b => a = b
  | boolean a, boolean b => a = b
  | null, null => true
  | absent, absent => true
  | array a, array b => sameAll a b
  | object a, object b => sameEntries a b
  | function a, function b => a.identity = b.identity
  | host a, host b => a = b
  | _, _ => false
termination_by structural x => x

def sameAll : List Value → List Value → Bool
  | [], [] => true
  | a :: as, b :: bs => same a b && sameAll as bs
  | _, _ => false
termination_by structural x => x

/-- Whether two lists of values under keys are structurally equal. -/
def sameEntries : List (String × Value) → List (String × Value) → Bool
  | [], [] => true
  | (k, a) :: as, (l, b) :: bs => k = l && same a b && sameEntries as bs
  | _, _ => false
termination_by structural x => x

end

mutual

/-- Whether two values are equal for the language. -/
def looseEquals : Value → Value → Bool
  | number a, number b => a == b
  | string a, string b => a = b
  | boolean a, boolean b => a = b
  | array a, array b => looseEqualsAll a b
  | object a, object b => looseEqualsEntries a b
  | function a, function b => a.identity = b.identity
  | host a, host b => a = b
  | a, b =>
    (a.isNullish && b.isNullish) || (a.isScalar && b.isScalar && a.toNumber == b.toNumber)
termination_by structural x => x

/-- Whether two lists of values are equal for the language. -/
def looseEqualsAll : List Value → List Value → Bool
  | [], [] => true
  | a :: as, b :: bs => looseEquals a b && looseEqualsAll as bs
  | _, _ => false
termination_by structural x => x

/-- Whether two lists of values under keys are equal for the language. -/
def looseEqualsEntries : List (String × Value) → List (String × Value) → Bool
  | [], [] => true
  | (k, a) :: as, (l, b) :: bs => k = l && looseEquals a b && looseEqualsEntries as bs
  | _, _ => false
termination_by structural x => x

end

end Trigger.Value
