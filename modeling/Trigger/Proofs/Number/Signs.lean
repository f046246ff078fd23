import Trigger.Helper.Distance
import Trigger.Proofs.Number.Plain
import Trigger.Proofs.Number.Real

/-!
# Signs of numbers

Products and sums of numbers without a sign have none, and neither has a square.  A number without a
sign is not below zero, or it is no number; the square of a distance is such a number.  One that is
not below zero is the infinity above all others, or it stands for a real number that is not below
zero.
-/

namespace Trigger.Number

open Float.Model (UnpackedFloat Format)
open Float.Model.UnpackedFloat

/-! ## Operations -/

theorem partsUnsigned_roundWithAccuracy (m : Nat) (e : Int) (accuracy : Accuracy) :
    PartsUnsigned (roundWithAccuracy .binary64 .positive m e accuracy) := by
  unfold roundWithAccuracy
  dsimp only
  split <;> rfl

theorem partsUnsigned_mul {p q : UnpackedFloat} (unsigned : PartsUnsigned p)
    (unsigned' : PartsUnsigned q) : PartsUnsigned (UnpackedFloat.mul .binary64 p q) := by
  cases p with
  | notANumber => trivial
  | finite sign m e pos =>
      obtain rfl : sign = .positive := unsigned
      cases q with
      | notANumber => trivial
      | infinity sign' | zero sign' =>
          obtain rfl : sign' = .positive := unsigned'
          rfl
      | finite sign' m' e' pos' =>
          obtain rfl : sign' = .positive := unsigned'
          exact partsUnsigned_roundWithAccuracy _ _ _
  | infinity sign | zero sign =>
      obtain rfl : sign = .positive := unsigned
      cases q with
      | notANumber => trivial
      | infinity sign' | zero sign' | finite sign' =>
          obtain rfl : sign' = .positive := unsigned'
          first | rfl | trivial

theorem partsUnsigned_normalize {n : Int} (nonneg : 0 ≤ n) (e : Int) :
    PartsUnsigned (UnpackedFloat.normalize .binary64 n e .positive) := by
  unfold UnpackedFloat.normalize
  split
  · rename_i negative
    have : n < 0 := compare_lt_iff_lt.mp negative
    omega
  · rfl
  · exact partsUnsigned_roundWithAccuracy _ _ _

theorem partsUnsigned_add {p q : UnpackedFloat} (unsigned : PartsUnsigned p)
    (unsigned' : PartsUnsigned q) : PartsUnsigned (UnpackedFloat.add .binary64 p q) := by
  cases p with
  | notANumber => trivial
  | finite sign m e pos =>
      obtain rfl : sign = .positive := unsigned
      cases q with
      | notANumber => trivial
      | infinity sign' | zero sign' =>
          obtain rfl : sign' = .positive := unsigned'
          rfl
      | finite sign' m' e' pos' =>
          obtain rfl : sign' = .positive := unsigned'
          exact partsUnsigned_normalize (Int.add_nonneg (Int.natCast_nonneg _)
            (Int.natCast_nonneg _)) _
  | infinity sign | zero sign =>
      obtain rfl : sign = .positive := unsigned
      cases q with
      | notANumber => trivial
      | infinity sign' | zero sign' | finite sign' =>
          obtain rfl : sign' = .positive := unsigned'
          rfl

/-- A square has no negative sign. -/
theorem partsUnsigned_square (p : UnpackedFloat) :
    PartsUnsigned (UnpackedFloat.mul .binary64 p p) := by
  cases p with
  | notANumber => trivial
  | infinity sign | zero sign => cases sign <;> rfl
  | finite sign m e pos =>
      have positive : sign * sign = .positive := by cases sign <;> rfl
      show PartsUnsigned (roundWithAccuracy _ (sign * sign) _ _ _)
      rw [positive]
      exact partsUnsigned_roundWithAccuracy _ _ _

theorem unsigned_mul {x y : Float} (unsigned : Unsigned x) (unsigned' : Unsigned y) :
    Unsigned (x * y) := unsigned_ofParts (partsUnsigned_mul unsigned unsigned')

theorem unsigned_add {x y : Float} (unsigned : Unsigned x) (unsigned' : Unsigned y) :
    Unsigned (x + y) := unsigned_ofParts (partsUnsigned_add unsigned unsigned')

theorem unsigned_square (x : Float) : Unsigned (x * x) :=
  unsigned_ofParts (partsUnsigned_square (parts x))

theorem unsigned_of_parts {x : Float} {m : Nat} {e : Int} {pos : 0 < m}
    (eq : parts x = .finite .positive m e pos) : Unsigned x := by
  rw [Unsigned, eq]
  rfl

theorem nonneg_of_unsigned {x : Float} (unsigned : Unsigned x) : 0 ≤ real x := by
  unfold Unsigned real at *
  cases eq : parts x with
  | finite sign m e pos =>
      rw [eq] at unsigned
      obtain rfl : sign = .positive := unsigned
      rw [valueOf_positive]
      exact (scaled_pos pos e).le
  | _ => exact le_refl 0

/-! ## Numbers beyond the finite ones -/

theorem nonneg_cases {x : Float} (nonneg : 0 ≤ x) :
    parts x = .infinity .positive ∨ Finite x ∧ 0 ≤ real x := by
  have compared := (le_iff 0 x).mp nonneg
  have zero : parts 0 = .zero .positive := rfl
  rw [zero] at compared
  rcases finite_or_special x with ⟨finite, -⟩ | none | ⟨sign, infinite⟩
  · refine .inr ⟨finite, ?_⟩
    unfold real
    cases eq : parts x with
    | finite sign m e pos =>
        cases sign with
        | negative =>
            rw [eq] at compared
            cases compared
        | positive =>
            rw [valueOf_positive]
            exact (scaled_pos pos e).le
    | _ => exact le_refl 0
  · rw [none] at compared
    cases compared
  · cases sign with
    | negative =>
        rw [infinite] at compared
        cases compared
    | positive => exact .inl infinite

theorem nonneg_of_finite {x : Float} (measured : 0 ≤ x ∨ x.isNaN = true) (finite : Finite x) :
    0 ≤ real x := by
  rcases measured with nonneg | none
  · rcases nonneg_cases nonneg with infinite | ⟨-, nonneg⟩
    · rw [Finite, infinite] at finite
      cases finite
    · exact nonneg
  · rw [Finite, parts_of_isNaN none] at finite
    cases finite

/-- A number without a negative sign is not below zero. -/
theorem measured_of_unsigned {x : Float} (unsigned : Unsigned x) : 0 ≤ x ∨ x.isNaN = true := by
  have zero : parts 0 = .zero .positive := rfl
  rw [le_iff, zero]
  show _ ∨ (parts x).isNaN = true
  unfold Unsigned at unsigned
  cases eq : parts x with
  | notANumber => exact .inr rfl
  | infinity sign | zero sign | finite sign =>
      rw [eq] at unsigned
      obtain rfl : sign = .positive := unsigned
      exact .inl rfl

/-- The square of a distance is not below zero, or it is no number. -/
theorem measured_squaredDistance (p q : Point) :
    0 ≤ squaredDistance p q ∨ (squaredDistance p q).isNaN = true :=
  measured_of_unsigned (unsigned_add (unsigned_square _) (unsigned_square _))

/-- The number above all others is above each finite one. -/
theorem order?_infinity {x y : Float} (infinite : parts x = .infinity .positive)
    (finite : Finite y) : order? x y = some .gt := by
  rw [order?_eq, infinite]
  unfold Finite at finite
  cases eq : parts y with
  | infinity | notANumber => rw [eq] at finite; cases finite
  | zero | finite => rfl

theorem parts_sqrt_of_infinite {x : Float} (infinite : parts x = .infinity .positive) :
    parts x.sqrt = .infinity .positive := by
  show parts (ofParts ((parts x).sqrt .binary64)) = _
  rw [infinite]
  rfl

/-- Nothing is above the infinity that is above all others. -/
theorem not_lt_of_infinite {x y : Float} (infinite : parts x = .infinity .positive) : ¬ x < y := by
  rw [lt_iff, infinite]
  cases parts y with
  | infinity sign => cases sign <;> decide
  | _ => nofun

theorem order?_of_real_lt {x y : Float} (finite : Finite x) (finite' : Finite y)
    (less : real x < real y) : order? x y = some .lt ∧ order? y x = some .gt := by
  have lt := (compare_eq_lt_iff finite finite').mpr less
  rw [order?_eq, order?_eq, compare_swap (parts x), lt]
  exact ⟨rfl, rfl⟩

end Trigger.Number
