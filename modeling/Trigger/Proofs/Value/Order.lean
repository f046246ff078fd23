import Mathlib.Data.String.Basic
import Trigger.Expr.Eval
import Trigger.Proofs.Number.Order

/-!
# The comparison operators agree

Two values compare one way as they do the other way round, so each ordering operator holds exactly
where its mirror image holds of the operands in the other order.

Among numbers, strings and truth values the order agrees with the equality of the language, although
each is given by its own cases: two strings are equal if they are the same text, which is when they
compare as equal, and all other pairs are compared, and are equal, by their numbers.  So one of `<`,
`==` and `>` holds, and only one, unless the two do not compare; then none does
(`comparisons_agree`).
-/

namespace Trigger

namespace BinaryOp

/-- Whether a comparison holds between two values. -/
def relates (op : BinaryOp) (a b : Value) : Bool := (op.apply a b).isTruthy

theorem holds_lessEqual (order : Option Ordering) :
    lessEqual.holds order = (less.holds order || decide (order = some .eq)) := by
  cases order with
  | none => rfl
  | some order => cases order <;> rfl

/-- One of three comparisons holds of values that compare. -/
theorem countP_holds (order : Option Ordering) :
    [less.holds order, decide (order = some .eq), greater.holds order].countP id =
      if order = none then 0 else 1 := by
  cases order with
  | none => rfl
  | some order => cases order <;> rfl

end BinaryOp

namespace Value

open Number (order? order?_swap order?_eq_some_eq_iff order?_eq_none_iff)

/-- Whether both values are strings, and so compare by their characters. -/
def areStrings (a b : Value) : Bool := a.string?.isSome && b.string?.isSome

/-- Whether two values do not compare, since one of them has no number. -/
def incomparable (a b : Value) : Bool :=
  (a.toNumber.isNaN || b.toNumber.isNaN) && !areStrings a b

/-! ## How two values compare -/

theorem compareStrings_eq_iff {s t : String} : compareStrings s t = .eq ↔ s = t := by
  unfold compareStrings
  by_cases less : s < t
  · have apart : s ≠ t := by
      rintro rfl
      exact String.lt_irrefl s less
    simp [less, apart]
  · by_cases same : s = t <;> simp [less, same]

theorem compareStrings_swap (s t : String) : compareStrings t s = (compareStrings s t).swap := by
  unfold compareStrings
  by_cases less : s < t
  · have apart : t ≠ s := by
      rintro rfl
      exact String.lt_irrefl t less
    simp [less, String.lt_asymm less, apart]
  · by_cases same : s = t
    · simp [same]
    · have greater : t < s := String.not_le.mp fun reverse =>
        same (String.le_antisymm reverse (String.not_lt.mp less))
      simp [less, same, greater]

/-- Two values are strings, or they compare by their numbers. -/
theorem strings_or_numbers (a b : Value) :
    (∃ s t, a = string s ∧ b = string t) ∨
      areStrings a b = false ∧ a.compare? b = order? a.toNumber b.toNumber ∧
        b.compare? a = order? b.toNumber a.toNumber := by
  cases a with
  | string s => cases b with
    | string t => exact .inl ⟨s, t, rfl, rfl⟩
    | _ => exact .inr ⟨rfl, rfl, rfl⟩
  | _ => exact .inr ⟨rfl, rfl, by unfold compare?; split <;> trivial⟩

theorem compare?_swap (a b : Value) : b.compare? a = (a.compare? b).map .swap := by
  obtain ⟨s, t, rfl, rfl⟩ | ⟨-, here, there⟩ := strings_or_numbers a b
  · exact congrArg some (compareStrings_swap s t)
  · rw [here, there, order?_swap]

theorem compare?_eq_none_iff {a b : Value} : a.compare? b = none ↔ incomparable a b = true := by
  obtain ⟨s, t, rfl, rfl⟩ | ⟨numbers, here, -⟩ := strings_or_numbers a b
  · simp [compare?, incomparable, areStrings, string?]
  · rw [here, order?_eq_none_iff, incomparable, numbers]
    simp

/-! ## Order and equality -/

/-- Numbers, strings and truth values are equal by their numbers, unless they are strings. -/
theorem looseEquals_of_isScalar {a b : Value} (scalar : a.isScalar = true)
    (scalar' : b.isScalar = true) (numbers : areStrings a b = false) :
    a.looseEquals b = (a.toNumber == b.toNumber) := by
  cases a with
  | number x => cases b with
    | number y => rfl
    | string | boolean => simp [looseEquals, isNullish, isScalar]
    | _ => cases scalar'
  | string s => cases b with
    | string t => cases numbers
    | number | boolean => simp [looseEquals, isNullish, isScalar]
    | _ => cases scalar'
  | boolean p => cases b with
    | boolean q => cases p <;> cases q <;> decide +kernel
    | number | string => simp [looseEquals, isNullish, isScalar]
    | _ => cases scalar'
  | _ => cases scalar

theorem compare?_eq_some_eq_iff {a b : Value} (scalar : a.isScalar = true)
    (scalar' : b.isScalar = true) : a.compare? b = some .eq ↔ a.looseEquals b = true := by
  obtain ⟨s, t, rfl, rfl⟩ | ⟨numbers, here, -⟩ := strings_or_numbers a b
  · rw [compare?, Option.some.injEq, compareStrings_eq_iff, looseEquals, decide_eq_true_iff]
  · rw [here, order?_eq_some_eq_iff, looseEquals_of_isScalar scalar scalar' numbers]

/-- Whether values are equal for the language can be told from how they compare. -/
theorem looseEquals_eq_compare? {a b : Value} (scalar : a.isScalar = true)
    (scalar' : b.isScalar = true) : a.looseEquals b = decide (a.compare? b = some .eq) := by
  rw [Bool.eq_iff_iff, decide_eq_true_iff, compare?_eq_some_eq_iff scalar scalar']

/-- Two values compare alike in both directions, so an ordering operator holds exactly where its
mirror image does with the operands the other way round.  Two numbers, strings or truth values
compare as equal exactly where the language takes them for equal.  Then `<=` is `<` or `==`, and one
of `<`, `==` and `>` holds, and no other, unless one of the two has no number and they are not both
strings: then none holds. -/
theorem comparisons_agree (a b : Value) :
    b.compare? a = (a.compare? b).map .swap ∧
    BinaryOp.less.apply a b = BinaryOp.greater.apply b a ∧
    BinaryOp.lessEqual.apply a b = BinaryOp.greaterEqual.apply b a ∧
    (a.isScalar = true → b.isScalar = true →
      (a.compare? b = some .eq ↔ a.looseEquals b = true) ∧
      BinaryOp.lessEqual.apply a b =
        .boolean (BinaryOp.less.relates a b || BinaryOp.equal.relates a b) ∧
      [BinaryOp.less, .equal, .greater].countP (·.relates a b) =
        if incomparable a b then 0 else 1) := by
  have swap := compare?_swap a b
  refine ⟨swap, ?_, ?_, fun scalar scalar' => ?_⟩
  · rw [BinaryOp.apply, BinaryOp.apply, swap]
    cases a.compare? b with
    | none => rfl
    | some order => cases order <;> rfl
  · rw [BinaryOp.apply, BinaryOp.apply, swap]
    cases a.compare? b with
    | none => rfl
    | some order => cases order <;> rfl
  · refine ⟨compare?_eq_some_eq_iff scalar scalar', ?_⟩
    have equal := looseEquals_eq_compare? scalar scalar'
    have related := BinaryOp.countP_holds (a.compare? b)
    rw [← equal, if_congr compare?_eq_none_iff rfl rfl] at related
    constructor
    · change boolean (BinaryOp.lessEqual.holds (a.compare? b)) =
        boolean (BinaryOp.less.holds (a.compare? b) || a.looseEquals b)
      rw [BinaryOp.holds_lessEqual, equal]
    · exact (List.countP_map (p := id)).symm.trans related

/-- A string and a number, and a string that writes no number. -/
theorem comparisons_agree_padded :
    (string " 1e1\n").isScalar = true ∧ (number (Number.ofNat 10)).isScalar = true ∧
      (string "ten").isScalar = true ∧
      (string " 1e1\n").looseEquals (number (Number.ofNat 10)) = true ∧
      BinaryOp.lessEqual.relates (string " 1e1\n") (number (Number.ofNat 10)) = true ∧
      [BinaryOp.less, .equal, .greater].countP
        (·.relates (string "ten") (number (Number.ofNat 10))) = 0 := by
  obtain ⟨-, -, -, padded⟩ := comparisons_agree (string " 1e1\n") (number (Number.ofNat 10))
  obtain ⟨-, -, -, wordy⟩ := comparisons_agree (string "ten") (number (Number.ofNat 10))
  obtain ⟨equal, less, -⟩ := padded rfl rfl
  obtain ⟨-, -, count⟩ := wordy rfl rfl
  have compared : (string " 1e1\n").compare? (number (Number.ofNat 10)) = some .eq := by
    decide +kernel
  have apart : incomparable (string "ten") (number (Number.ofNat 10)) = true := by decide +kernel
  have equal := equal.mp compared
  refine ⟨rfl, rfl, rfl, equal, ?_, by rw [count, apart]; rfl⟩
  rw [BinaryOp.relates, less]
  simp [BinaryOp.relates, BinaryOp.apply, equal, isTruthy]

end Value

end Trigger
