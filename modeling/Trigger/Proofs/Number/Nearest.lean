import Trigger.Proofs.Number.Signs

/-!
# Rounding goes to the nearest number

No number is nearer to an exact result than the one that it is rounded to, but for the greatest
power.  The numbers in question are whole numbers of units, unless they are so small that a whole
number of units lies between them and the exact result.

Of two exact results the lesser one is not rounded to the greater number then, so rounded roots keep
the order of the numbers that they are taken of.
-/

namespace Trigger.Number

open Float.Model (UnpackedFloat Format)
open Float.Model.UnpackedFloat

/-- No parts stand for a number that is nearer to the exact result. -/
def Nearest (y x : ℝ) : Prop := ∀ q, IsCanonical q → |y - x| ≤ |valueOf q - x|

section
variable {a b x x' : ℝ}

theorem add_le_of_nearer (less : a < b) (nearer : |b - x| ≤ |a - x|) : a + b ≤ 2 * x := by
  have squares := sq_le_sq.mpr nearer
  nlinarith

theorem le_add_of_nearer (less : a < b) (nearer : |a - x| ≤ |b - x|) : 2 * x ≤ a + b := by
  have squares := sq_le_sq.mpr nearer
  nlinarith

end

/-- The lesser exact result is not rounded to the greater number. -/
theorem Nearest.valueOf_le {p q : UnpackedFloat} {x x' : ℝ} (canonical : IsCanonical p)
    (canonical' : IsCanonical q) (nearest : Nearest (valueOf p) x)
    (nearest' : Nearest (valueOf q) x') (less : x < x') : valueOf p ≤ valueOf q := by
  by_contra greater
  have greater : valueOf q < valueOf p := not_le.mp greater
  -- The middle between the two numbers is not above `x`, and not below `x'`.
  have low := add_le_of_nearer greater (nearest q canonical')
  have high := le_add_of_nearer greater (nearest' p canonical)
  linarith

/-! ## Units -/

/-- A whole number of units that is half a unit away is the nearest one. -/
theorem nearest_units {r k : ℤ} {unit x : ℝ} (pos : 0 < unit)
    (error : |r * unit - x| ≤ unit * (1 / 2)) : |r * unit - x| ≤ |k * unit - x| := by
  by_cases same : r = k
  · rw [same]
  · have apart : (1 : ℝ) ≤ |(r : ℝ) - k| := by
      exact_mod_cast Int.one_le_abs (sub_ne_zero.mpr same)
    have distance : unit ≤ |r * unit - k * unit| := by
      rw [← sub_mul, abs_mul, abs_of_pos pos]
      exact le_mul_of_one_le_left pos.le apart
    have around := abs_sub_le (r * unit) x (k * unit)
    rw [abs_sub_comm x] at around
    linarith

/-- A number is a whole number of units, or it is small for this unit. -/
theorem units_or_small {q : UnpackedFloat} (canonical : IsCanonical q) (power : ℤ) :
    (∃ k : ℤ, valueOf q = k * 2 ^ power) ∨ -1074 < power ∧ valueOf q < 2 ^ (power + 52) := by
  cases q with
  | infinity | notANumber => cases canonical
  | zero sign => exact .inl ⟨0, by simp [valueOf]⟩
  | finite sign m e pos =>
      obtain ⟨bounded, least, -⟩ := canonical
      rcases le_or_gt power e with le | lt
      · left
        refine ⟨sign.apply 1 * (m * 2 ^ (e - power).toNat), ?_⟩
        have power_eq : (2 : ℝ) ^ e = 2 ^ (e - power).toNat * 2 ^ power := by
          rw [← zpow_natCast, ← two_zpow_add]
          congr 1
          omega
        rw [valueOf_finite, power_eq]
        push_cast
        ring
      · right
        refine ⟨by omega, (le_abs_self _).trans_lt ?_⟩
        have bounded : (m : ℝ) < 2 ^ 53 := by exact_mod_cast bounded
        have := two_zpow_pos e
        rw [abs_valueOf]
        calc (m : ℝ) * 2 ^ e
          _ < 2 ^ 53 * 2 ^ e := by gcongr
          _ = 2 ^ (53 + e) := by rw [two_zpow_add]; norm_num
          _ ≤ 2 ^ (power + 52) := two_zpow_le (by omega)

/-- A significand without a sign is rounded to the nearest number. -/
theorem nearest_roundWithAccuracy {m : Nat} (pos : 0 < m) {e : Int} {accuracy : Accuracy} {x : ℝ}
    (holds : Holds (.ofMantissaAndAccuracy m accuracy) x) (low : e ≤ target m e) :
    Nearest (valueOf (roundWithAccuracy .binary64 .positive m e accuracy)) (x * 2 ^ e) := by
  intro q canonical
  obtain ⟨-, r, value, error⟩ := units_roundWithAccuracy .positive pos holds low
  have one : ((Sign.positive.apply 1 : ℤ) : ℝ) = 1 := Int.cast_one
  rw [one, one_mul] at value
  rw [value]
  have nearest (k : ℤ) : |(r : ℝ) * 2 ^ target m e - x * 2 ^ e| ≤
      |(k : ℝ) * 2 ^ target m e - x * 2 ^ e| :=
    nearest_units (r := r) (two_zpow_pos _) error
  rcases units_or_small canonical (target m e) with ⟨k, units⟩ | ⟨above, small⟩
  · rw [units]
    exact nearest k
  · -- The greatest power of two with as many bits is between the number and the exact result.
    have eq := target_eq m e
    have bits : (2 : ℝ) ^ (target m e + 52) ≤ x * 2 ^ e :=
      calc (2 : ℝ) ^ (target m e + 52)
        _ = 2 ^ m.log2 * 2 ^ e := by
          rw [← zpow_natCast, ← two_zpow_add]
          congr 1
          omega
        _ ≤ m * 2 ^ e := by
          have := two_zpow_pos e
          gcongr
          exact_mod_cast Nat.log2_self_le pos.ne'
        _ ≤ x * 2 ^ e := by
          have := two_zpow_pos e
          have le : (m : ℝ) ≤ x := by simpa using holds.mantissa_le
          gcongr
    have between := nearest (2 ^ 52)
    have power : (((2 : ℤ) ^ 52 : ℤ) : ℝ) * 2 ^ target m e = 2 ^ (target m e + 52) := by
      rw [add_comm, two_zpow_add]
      norm_num
    rw [power] at between
    refine between.trans ?_
    rw [abs_of_nonpos (by linarith), abs_of_nonpos (by linarith)]
    linarith

theorem Nearest.eq {y x : ℝ} (nearest : Nearest y x) {q : UnpackedFloat}
    (canonical : IsCanonical q) (same : valueOf q = x) : y = x := by
  have near := nearest q canonical
  rw [same, sub_self, abs_zero] at near
  exact sub_eq_zero.mp (abs_nonpos_iff.mp near)

/-! ## Squares and roots of parts -/

theorem scaled_eq {m m' : Nat} {e e' : Int}
    (less : ¬ (compare e e').then (compare m m') = .lt)
    (greater : ¬ (compare e' e).then (compare m' m) = .lt) : m = m' ∧ e = e' := by
  rw [Ordering.then_eq_lt, compare_lt_iff_lt, compare_eq_iff_eq, compare_lt_iff_lt] at less greater
  omega

section
variable {p q : UnpackedFloat} (canonical : IsCanonical p)
include canonical

theorem nearest_square :
    Nearest (valueOf (UnpackedFloat.mul .binary64 p p)) (valueOf p * valueOf p) := by
  cases p with
  | infinity | notANumber => cases canonical
  | zero sign =>
      intro q _
      have zero : valueOf (UnpackedFloat.mul .binary64 (.zero sign) (.zero sign)) = 0 := rfl
      rw [zero, show valueOf (.zero sign) = 0 from rfl, mul_zero, sub_self, abs_zero]
      exact abs_nonneg _
  | finite sign m e pos =>
      have positive : sign * sign = .positive := by cases sign <;> rfl
      have nearest := nearest_roundWithAccuracy (Nat.mul_pos pos pos) (Holds.exact (m * m))
        (le_target_mul pos pos canonical canonical)
      have value : valueOf (.finite sign m e pos) * valueOf (.finite sign m e pos) =
          ((m * m : ℕ) : ℝ) * 2 ^ (e + e) := by
        rw [← abs_mul_abs_self, abs_valueOf, two_zpow_add]
        push_cast
        ring
      have result : UnpackedFloat.mul .binary64 (.finite sign m e pos) (.finite sign m e pos) =
          roundWithAccuracy .binary64 (sign * sign) (m * m) (e + e) .exact := rfl
      rw [value, result, positive]
      exact nearest

theorem nearest_sqrt (positive : 0 < valueOf p) :
    Nearest (valueOf (UnpackedFloat.sqrt .binary64 p)) √(valueOf p) := by
  cases p with
  | infinity | notANumber => cases canonical
  | zero sign => exact absurd positive (lt_irrefl 0)
  | finite sign m e pos =>
      cases sign with
      | negative =>
          have := scaled_pos pos e
          rw [valueOf_negative] at positive
          linarith
      | positive =>
          obtain ⟨n, power, root_pos, enough, result, root⟩ := exists_root pos e
          rw [valueOf_positive, result, root]
          exact nearest_roundWithAccuracy root_pos (holds_root n) enough

/-- A number above zero has its parts from its value. -/
theorem eq_of_valueOf_eq (canonical' : IsCanonical q) (positive : 0 < valueOf p)
    (same : valueOf p = valueOf q) : p = q := by
  cases p with
  | infinity | notANumber => cases canonical
  | zero sign => exact absurd positive (lt_irrefl 0)
  | finite sign m e pos =>
      cases q with
      | infinity | notANumber => cases canonical'
      | zero sign' => exact absurd (same ▸ positive) (lt_irrefl 0)
      | finite sign' m' e' pos' =>
          have scaled := scaled_pos pos e
          have scaled' := scaled_pos pos' e'
          cases sign with
          | negative =>
              rw [valueOf_negative] at positive
              linarith
          | positive =>
              cases sign' with
              | negative =>
                  rw [same, valueOf_negative] at positive
                  linarith
              | positive =>
                  rw [valueOf_positive, valueOf_positive] at same
                  have less := (scaled_lt_iff canonical canonical').not.mp same.not_lt
                  have greater := (scaled_lt_iff canonical' canonical).not.mp same.not_gt
                  obtain ⟨significands, powers⟩ := scaled_eq less greater
                  exact finite_congr significands powers

theorem valueOf_sqrt_of_zero (zero : valueOf p = 0) :
    valueOf (UnpackedFloat.sqrt .binary64 p) = 0 := by
  cases p with
  | infinity | notANumber => cases canonical
  | zero sign => rfl
  | finite sign m e pos =>
      have size := abs_valueOf sign m e pos
      rw [zero, abs_zero] at size
      exact absurd size (scaled_pos pos e).ne

theorem valueOf_sqrt_nonneg (nonneg : 0 ≤ valueOf p) :
    0 ≤ valueOf (UnpackedFloat.sqrt .binary64 p) := by
  rcases nonneg.lt_or_eq with positive | zero
  · have near := nearest_sqrt canonical positive (.zero .positive) trivial
    rw [show valueOf (.zero .positive) = 0 from rfl, zero_sub, abs_neg,
      abs_of_nonneg (Real.sqrt_nonneg _)] at near
    have := (abs_le.mp near).1
    linarith
  · rw [valueOf_sqrt_of_zero canonical zero.symm]

/-- Rounded roots keep the order. -/
theorem valueOf_sqrt_le (canonical' : IsCanonical q) (nonneg : 0 ≤ valueOf p)
    (le : valueOf p ≤ valueOf q) :
    valueOf (UnpackedFloat.sqrt .binary64 p) ≤ valueOf (UnpackedFloat.sqrt .binary64 q) := by
  have rounds := rounds_sqrt canonical nonneg
  have rounds' := rounds_sqrt canonical' (nonneg.trans le)
  rcases nonneg.lt_or_eq with positive | zero
  · rcases le.lt_or_eq with less | same
    · exact (nearest_sqrt canonical positive).valueOf_le rounds.canonical rounds'.canonical
        (nearest_sqrt canonical' (positive.trans less)) (Real.sqrt_lt_sqrt nonneg less)
    · rw [eq_of_valueOf_eq canonical canonical' positive same]
  · rw [valueOf_sqrt_of_zero canonical zero.symm]
    exact valueOf_sqrt_nonneg canonical' (nonneg.trans le)

end

/-! ## Roots of numbers -/

theorem real_sqrt {x : Float} (finite : Finite x) (nonneg : 0 ≤ real x) :
    real x.sqrt = valueOf (UnpackedFloat.sqrt .binary64 (parts x)) :=
  real_ofParts (rounds_sqrt finite nonneg).canonical (finite_sqrt finite nonneg).1

/-- The root of a number that is not below zero is a number. -/
theorem isNaN_sqrt {x : Float} (nonneg : 0 ≤ x) : x.sqrt.isNaN = false := by
  rcases nonneg_cases nonneg with infinite | ⟨finite, nonneg⟩
  · show (parts x.sqrt).isNaN = false
    rw [parts_sqrt_of_infinite infinite]
    rfl
  · exact isNaN_of_finite (finite_sqrt finite nonneg).1

/-- It is not below zero. -/
theorem extended_sqrt_nonneg {x : Float} (nonneg : 0 ≤ x) : 0 ≤ extended x.sqrt := by
  rcases nonneg_cases nonneg with infinite | ⟨finite, nonneg⟩
  · rw [extended, parts_sqrt_of_infinite infinite]
    exact le_top
  · have finite_root := (finite_sqrt finite nonneg).1
    rw [extended_of_finite finite_root, EReal.coe_nonneg, real_sqrt finite nonneg]
    exact valueOf_sqrt_nonneg finite nonneg

theorem isNaN_sqrt_of_isNaN {x : Float} (none : x.isNaN = true) : x.sqrt.isNaN = true := by
  show (parts (ofParts ((parts x).sqrt .binary64))).isNaN = true
  rw [parts_of_isNaN none]
  rfl

/-- What has a number as its root is a number. -/
theorem isNaN_of_isNaN_sqrt {x : Float} (number : x.sqrt.isNaN = false) : x.isNaN = false :=
  Bool.eq_false_iff.mpr fun none => Bool.eq_false_iff.mp number (isNaN_sqrt_of_isNaN none)

theorem real_sqrt_le {x y : Float} (finite : Finite x) (finite' : Finite y) (nonneg : 0 ≤ real x)
    (le : real x ≤ real y) : real x.sqrt ≤ real y.sqrt := by
  rw [real_sqrt finite nonneg, real_sqrt finite' (nonneg.trans le)]
  exact valueOf_sqrt_le finite finite' nonneg le

/-- A number that is the exact square of another one is its square, and has it as its root. -/
theorem exact_square {x d : Float} (finite : Finite x) (finite' : Finite d) (nonneg : 0 ≤ real x)
    (square : real d = real x * real x) :
    (Finite (x * x) ∧ real (x * x) = real d) ∧ Finite d.sqrt ∧ real d.sqrt = real x := by
  have canonical := (rounds_mul finite finite).canonical
  have value : valueOf (UnpackedFloat.mul .binary64 (parts x) (parts x)) = real d :=
    ((nearest_square finite).eq finite' square).trans square.symm
  have bounded : Finite (x * x) := by
    by_contra infinite
    have large := le_abs_valueOf canonical infinite
    rw [value] at large
    exact absurd (abs_real_lt finite') (not_lt.mpr large)
  have nonneg' : 0 ≤ real d := square ▸ mul_self_nonneg _
  refine ⟨⟨bounded, (real_ofParts canonical bounded).trans value⟩,
    (finite_sqrt finite' nonneg').1, ?_⟩
  have root : √(real d) = real x := by rw [square, Real.sqrt_mul_self nonneg]
  rw [real_sqrt finite' nonneg']
  rcases nonneg'.lt_or_eq with positive | zero
  · exact ((nearest_sqrt finite' positive).eq finite root.symm).trans root
  · rw [valueOf_sqrt_of_zero finite' zero.symm, ← root, ← zero, Real.sqrt_zero]

/-- Roots keep the order. -/
theorem not_sqrt_lt_sqrt {x y : Float} (nonneg : 0 ≤ x) (nonneg' : 0 ≤ y) (not_less : ¬ y < x) :
    ¬ y.sqrt < x.sqrt := by
  rcases nonneg_cases nonneg' with infinite' | ⟨finite', nonneg'⟩
  · exact not_lt_of_infinite (parts_sqrt_of_infinite infinite')
  · rcases nonneg_cases nonneg with infinite | ⟨finite, nonneg⟩
    · have order := order?_infinity infinite finite'
      rw [order?, if_neg (not_lt_of_infinite infinite), if_neg not_less] at order
      split at order <;> cases order
    · have le : real x ≤ real y := not_lt.mp ((lt_iff_real finite' finite).not.mp not_less)
      rw [lt_iff_real (finite_sqrt finite' nonneg').1 (finite_sqrt finite nonneg).1]
      exact (real_sqrt_le finite finite' nonneg le).not_gt

end Trigger.Number
