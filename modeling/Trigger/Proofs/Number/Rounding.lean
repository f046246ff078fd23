import Mathlib.Analysis.Real.Sqrt
import Mathlib.Data.Nat.Sqrt
import Trigger.Number.Parts

/-!
# Rounding

The result of an operation on numbers is the exact one, rounded to 53 bits, or to fewer next to
zero.  Here the exact results are real numbers, and all that is said of rounding is how far it may
go: the error is at most half a unit in the last place, which is the `relative` part of the exact
result or the `absolute` one next to zero (`Rounds`).

A significand is rounded by shifting it to the right, with two bits for what is shifted out.
`Holds` is what these two bits say of the exact result; each shift keeps it, and behind the last one
it bounds the error by a half.
-/

namespace Trigger.Number

open Float.Model (UnpackedFloat Format totalExponent)
open Float.Model.UnpackedFloat

/-! ## Values -/

/-- The real number that the parts stand for, zero if they stand for none. -/
noncomputable def valueOf : UnpackedFloat → ℝ
  | .finite sign m e _ => (sign.apply m : ℤ) * (2 : ℝ) ^ e
  | _ => 0

/-- The significand has 53 bits, or fewer and the least power. -/
def IsScaled (m : Nat) (e : Int) : Prop := m < 2 ^ 53 ∧ -1074 ≤ e ∧ (2 ^ 52 ≤ m ∨ e = -1074)

/-- The parts stand for a real number, in the form that is given to it. -/
def IsCanonical : UnpackedFloat → Prop
  | .zero _ => True
  | .finite _ m e _ => IsScaled m e
  | _ => False

/-- The error of rounding, as a part of the exact result. -/
noncomputable def relative : ℝ := 2 ^ (-53 : ℤ)

/-- The error of rounding next to zero. -/
noncomputable def absolute : ℝ := 2 ^ (-1075 : ℤ)

/-- The least number with a full significand. -/
noncomputable def leastFull : ℝ := 2 ^ (-1022 : ℤ)

/-- A result is the exact one but for an error of rounding. -/
def Near (y x : ℝ) : Prop := |y - x| ≤ |x| * relative + absolute

/-- The parts are those of the exact result but for an error of rounding. -/
structure Rounds (p : UnpackedFloat) (x : ℝ) : Prop where
  canonical : IsCanonical p
  near : Near (valueOf p) x

theorem two_zpow_pos (e : ℤ) : (0 : ℝ) < 2 ^ e := zpow_pos two_pos e

theorem two_zpow_add (a b : ℤ) : (2 : ℝ) ^ (a + b) = 2 ^ a * 2 ^ b := zpow_add₀ two_ne_zero a b

theorem two_zpow_le {a b : ℤ} (le : a ≤ b) : (2 : ℝ) ^ a ≤ 2 ^ b :=
  zpow_le_zpow_right₀ one_le_two le

theorem relative_pos : 0 < relative := two_zpow_pos _

theorem absolute_pos : 0 < absolute := two_zpow_pos _

theorem relative_eq : relative = 1 / 9007199254740992 := by
  rw [relative]
  norm_num

theorem absolute_eq : absolute = relative * leastFull := by
  rw [absolute, relative, leastFull, ← two_zpow_add]
  rfl

theorem leastFull_pos : 0 < leastFull := two_zpow_pos _

theorem leastFull_le_one : leastFull ≤ 1 := zpow_le_one_of_nonpos₀ one_le_two (by norm_num)

/-- What a rounded result that is not negative may be. -/
theorem Near.bounds {y x : ℝ} (near : Near y x) (nonneg : 0 ≤ x) :
    x - relative * (x + leastFull) ≤ y ∧ y ≤ x + relative * (x + leastFull) := by
  rw [Near, abs_of_nonneg nonneg, absolute_eq] at near
  have := abs_le.mp near
  constructor <;> linarith

/-- Parts are rounded to themselves. -/
theorem IsCanonical.rounds {p : UnpackedFloat} (canonical : IsCanonical p) :
    Rounds p (valueOf p) where
  canonical := canonical
  near := by
    rw [Near, sub_self, abs_zero]
    have := relative_pos
    have := absolute_pos
    positivity

theorem rounds_zero (sign : Sign) : Rounds (.zero sign) 0 :=
  IsCanonical.rounds (p := .zero sign) trivial

theorem cast_apply (sign : Sign) (n : ℤ) :
    ((sign.apply n : ℤ) : ℝ) = (sign.apply 1 : ℤ) * (n : ℝ) := by
  cases sign <;> simp [Sign.apply]

theorem abs_apply_one (sign : Sign) : |((sign.apply 1 : ℤ) : ℝ)| = 1 := by
  cases sign <;> simp [Sign.apply]

theorem valueOf_finite (sign : Sign) (m : Nat) (e : Int) (pos : 0 < m) :
    valueOf (.finite sign m e pos) = (sign.apply 1 : ℤ) * (m * (2 : ℝ) ^ e) := by
  show ((sign.apply m : ℤ) : ℝ) * (2 : ℝ) ^ e = _
  rw [cast_apply, Int.cast_natCast, mul_assoc]

theorem scaled_pos {m : Nat} (pos : 0 < m) (e : Int) : (0 : ℝ) < m * 2 ^ e := by
  have := two_zpow_pos e
  positivity

theorem valueOf_positive (m : Nat) (e : Int) (pos : 0 < m) :
    valueOf (.finite .positive m e pos) = m * 2 ^ e := by
  rw [valueOf_finite]
  simp [Sign.apply]

theorem valueOf_negative (m : Nat) (e : Int) (pos : 0 < m) :
    valueOf (.finite .negative m e pos) = -(m * 2 ^ e) := by
  rw [valueOf_finite]
  simp [Sign.apply]

/-! ## Significands -/

/-- What a significand and the two bits behind it say of the exact one. -/
def Holds (em : ExtendedMantissa) (x : ℝ) : Prop :=
  match em.roundBit, em.stickyBit with
  | false, false => x = em.mantissa
  | false, true => em.mantissa < x ∧ x < em.mantissa + 1 / 2
  | true, false => x = em.mantissa + 1 / 2
  | true, true => em.mantissa + 1 / 2 < x ∧ x < em.mantissa + 1

namespace Holds

variable {em : ExtendedMantissa} {x : ℝ}

theorem exact (m : Nat) : Holds (.ofMantissaAndAccuracy m .exact) m := rfl

theorem mantissa_le (holds : Holds em x) : em.mantissa ≤ x := by
  obtain ⟨m, round, sticky⟩ := em
  cases round <;> cases sticky <;> simp only [Holds] at holds ⊢ <;> linarith

theorem shiftRightOne (holds : Holds em x) : Holds em.shiftRightOne (x / 2) := by
  obtain ⟨m, round, sticky⟩ := em
  have halves : (m : ℝ) = 2 * (m / 2 : ℕ) + (m % 2 : ℕ) := by
    exact_mod_cast (Nat.div_add_mod m 2).symm
  have odd : (1 != 0) = true := rfl
  rcases Nat.mod_two_eq_zero_or_one m with parity | parity <;> rw [parity] at halves <;>
    cases round <;> cases sticky <;>
    simp only [Holds, ExtendedMantissa.shiftRightOne, parity, Nat.cast_zero, Nat.cast_one,
      bne_self_eq_false, odd, Bool.or_false, Bool.or_true] at halves holds ⊢ <;>
    first
      | linarith
      | exact ⟨by linarith, by linarith⟩

theorem shiftRight (holds : Holds em x) (k : Nat) : Holds (em >>> k) (x / 2 ^ k) := by
  show Holds (k.repeat ExtendedMantissa.shiftRightOne em) _
  induction k with
  | zero => simpa [Nat.repeat] using holds
  | succ k ih =>
      rw [pow_succ, ← div_div]
      exact ih.shiftRightOne

/-- The rounded significand is half a unit away at most. -/
theorem rounded (holds : Holds em x) : |(em.roundedMantissa : ℝ) - x| ≤ 1 / 2 := by
  obtain ⟨m, round, sticky⟩ := em
  have parity : m % 2 ≤ 1 := Nat.le_of_lt_succ (Nat.mod_lt m two_pos)
  have parity : ((m % 2 : ℕ) : ℝ) ≤ 1 := by exact_mod_cast parity
  have nonneg : (0 : ℝ) ≤ (m % 2 : ℕ) := Nat.cast_nonneg _
  cases round <;> cases sticky <;>
    simp only [Holds, ExtendedMantissa.roundedMantissa, ExtendedMantissa.accuracy,
      Accuracy.roundToNearestEven, Nat.cast_add, Nat.cast_one] at holds ⊢ <;>
    exact abs_le.mpr ⟨by linarith, by linarith⟩

/-- Of two significands that are half a unit away it is the even one. -/
theorem even (holds : Holds em x) (half : |(em.roundedMantissa : ℝ) - x| = 1 / 2) :
    em.roundedMantissa % 2 = 0 := by
  obtain ⟨m, round, sticky⟩ := em
  -- With other bits the rounded significand is nearer than that.
  have far (near : -(1 / 2) < ((ExtendedMantissa.mk m round sticky).roundedMantissa : ℝ) - x ∧
      ((ExtendedMantissa.mk m round sticky).roundedMantissa : ℝ) - x < 1 / 2) : False :=
    (abs_lt.mpr near).ne half
  cases round <;> cases sticky <;>
    simp only [Holds, ExtendedMantissa.roundedMantissa, ExtendedMantissa.accuracy,
      Accuracy.roundToNearestEven, Nat.cast_add, Nat.cast_one] at holds far ⊢
  case true.false => omega
  all_goals exact (far ⟨by linarith, by linarith⟩).elim

end Holds

theorem mantissa_shiftRight (em : ExtendedMantissa) (k : Nat) :
    (em >>> k).mantissa = em.mantissa / 2 ^ k := by
  show (k.repeat ExtendedMantissa.shiftRightOne em).mantissa = _
  induction k with
  | zero => simp [Nat.repeat]
  | succ k ih =>
      rw [Nat.repeat, ExtendedMantissa.shiftRightOne, ih, Nat.div_div_eq_div_mul, ← pow_succ]

theorem mantissa_le_rounded (em : ExtendedMantissa) :
    em.mantissa ≤ em.roundedMantissa ∧ em.roundedMantissa ≤ em.mantissa + 1 := by
  obtain ⟨m, round, sticky⟩ := em
  cases round <;> cases sticky <;>
    simp only [ExtendedMantissa.roundedMantissa, ExtendedMantissa.accuracy,
      Accuracy.roundToNearestEven] <;> omega

/-! ## Powers -/

/-- The power that a significand is given to which another one belongs. -/
def target (m : Nat) (e : Int) : Int := Format.binary64.targetExponent (totalExponent m e)

theorem target_eq (m : Nat) (e : Int) : target m e = max (m.log2 + e - 52) (-1074) := by
  have bits : (Format.binary64.mantissaBits : Int) = 53 := rfl
  have least : Format.binary64.minExponent = -1074 := rfl
  rw [target, Format.targetExponent, totalExponent, bits, least]
  congr 1
  omega

theorem shiftToTargetExponent_eq (m : Nat) (e : Int) (accuracy : Accuracy) :
    shiftToTargetExponent .binary64 m e accuracy =
      (ExtendedMantissa.ofMantissaAndAccuracy m accuracy >>> (target m e - e).toNat,
        e + (target m e - e).toNat) := rfl

@[simp] theorem mantissa_ofMantissaAndAccuracy (m : Nat) (accuracy : Accuracy) :
    (ExtendedMantissa.ofMantissaAndAccuracy m accuracy).mantissa = m := by
  cases accuracy with
  | exact => rfl
  | inexact order => cases order <;> rfl

/-- A significand that is shifted to its power has 53 bits, or fewer and the least power. -/
theorem shifted_bounds {m : Nat} (pos : 0 < m) {e : Int} (low : e ≤ target m e) :
    m / 2 ^ (target m e - e).toNat < 2 ^ 53 ∧
      (2 ^ 52 ≤ m / 2 ^ (target m e - e).toNat ∨ target m e = -1074) := by
  have shift : ((target m e - e).toNat : Int) = target m e - e := Int.toNat_of_nonneg (by omega)
  have eq := target_eq m e
  constructor
  · refine (Nat.div_lt_iff_lt_mul (by positivity)).mpr ?_
    rw [← pow_add]
    exact (Nat.lt_log2_self (n := m)).trans_le (Nat.pow_le_pow_right two_pos (by omega))
  · by_cases least : target m e = -1074
    · exact .inr least
    · left
      refine (Nat.le_div_iff_mul_le (by positivity)).mpr ?_
      rw [← pow_add]
      exact (Nat.pow_le_pow_right two_pos (by omega)).trans (Nat.log2_self_le pos.ne')

/-- A rounded significand is shifted once more if it has got a bit too many. -/
theorem shift_carry {r : Nat} {e : Int} (le : r ≤ 2 ^ 53) (least : -1074 ≤ e)
    (full : 2 ^ 52 ≤ r ∨ e = -1074) :
    let shifted := shiftToTargetExponent .binary64 r e .exact
    (shifted.1.mantissa : ℝ) * 2 ^ shifted.2 = r * 2 ^ e ∧
      IsScaled shifted.1.mantissa shifted.2 := by
  intro shifted
  have eq := target_eq r e
  have mantissa : shifted.1.mantissa = r / 2 ^ (target r e - e).toNat := by
    rw [show shifted = _ from shiftToTargetExponent_eq r e .exact, mantissa_shiftRight,
      mantissa_ofMantissaAndAccuracy]
  have power : shifted.2 = e + (target r e - e).toNat := rfl
  rw [mantissa, power]
  rcases le.lt_or_eq with lt | rfl
  · have bits : r.log2 ≤ 52 := by
      by_cases zero : r = 0
      · simp [zero]
      · exact Nat.le_of_lt_succ ((Nat.log2_lt zero).mpr lt)
    have scaled : IsScaled r e := ⟨lt, least, full⟩
    rw [show (target r e - e).toNat = 0 by omega]
    simpa using scaled
  · rw [Nat.log2_two_pow] at eq
    rw [show (target (2 ^ 53) e - e).toNat = 1 by omega]
    refine ⟨?_, by norm_num, by omega, .inl (by norm_num)⟩
    rw [Nat.cast_one, two_zpow_add]
    norm_num
    ring

/-! ## Rounded results -/

/-- Half a unit in the last place is within the error of rounding. -/
theorem half_unit_le {m : Nat} (pos : 0 < m) (e : Int) {x : ℝ} (le : (m : ℝ) ≤ x) :
    (2 : ℝ) ^ target m e * (1 / 2) ≤ x * 2 ^ e * relative + absolute := by
  have half : (1 / 2 : ℝ) = 2 ^ (-1 : ℤ) := by norm_num
  have eq := target_eq m e
  rw [half, ← two_zpow_add]
  by_cases least : target m e = -1074
  · have nonneg : 0 ≤ x * 2 ^ e * relative := by
      have := (Nat.cast_nonneg m).trans le
      have := two_zpow_pos e
      have := relative_pos
      positivity
    rw [least]
    exact le_add_of_nonneg_left nonneg
  · have full : (2 : ℝ) ^ m.log2 ≤ x := by
      refine le_trans ?_ le
      exact_mod_cast Nat.log2_self_le pos.ne'
    calc (2 : ℝ) ^ (target m e + -1)
      _ = 2 ^ ((m.log2 : ℤ) + e + -53) := by congr 1; omega
      _ = 2 ^ m.log2 * 2 ^ e * relative := by
        rw [two_zpow_add, two_zpow_add, zpow_natCast, relative]
      _ ≤ x * 2 ^ e * relative := by
        have := two_zpow_pos e
        have := relative_pos
        gcongr
      _ ≤ x * 2 ^ e * relative + absolute := le_add_of_nonneg_right absolute_pos.le

section
variable (sign : Sign) {m : Nat} (pos : 0 < m) {e : Int} {accuracy : Accuracy} {x : ℝ}

/-- The exact result in units of the power that it is rounded to. -/
theorem scaled_eq_target (low : e ≤ target m e) (x : ℝ) :
    x * 2 ^ e = x / 2 ^ (target m e - e).toNat * 2 ^ target m e := by
  conv_rhs => rw [show target m e = e + (target m e - e).toNat by omega, two_zpow_add, zpow_natCast]
  have shift : e + (target m e - e).toNat - e = ((target m e - e).toNat : Int) := by omega
  rw [shift, Int.toNat_natCast]
  field_simp

include pos

/-- A significand is rounded to a whole number of units of its power: the nearest one, and of two
that are as near the even one.  Only what is shifted to this power counts. -/
theorem exists_roundWithAccuracy (low : e ≤ target m e)
    (holds : Holds (ExtendedMantissa.ofMantissaAndAccuracy m accuracy >>>
      (target m e - e).toNat) x) :
    IsCanonical (roundWithAccuracy .binary64 sign m e accuracy) ∧ ∃ r : ℕ,
      valueOf (roundWithAccuracy .binary64 sign m e accuracy) =
        (sign.apply 1 : ℤ) * (r * (2 : ℝ) ^ target m e) ∧
      |(r : ℝ) - x| ≤ 1 / 2 ∧ (|(r : ℝ) - x| = 1 / 2 → r % 2 = 0) := by
  have least : -1074 ≤ target m e := by rw [target_eq]; exact le_max_right _ _
  have shift : e + (target m e - e).toNat = target m e := by omega
  obtain ⟨bounded, full⟩ := shifted_bounds pos low
  have shifted := shiftToTargetExponent_eq m e accuracy
  rw [shift] at shifted
  generalize (target m e - e).toNat = k at shift bounded full shifted holds
  -- The significand is shifted to its power, and rounded there.
  let first := ExtendedMantissa.ofMantissaAndAccuracy m accuracy >>> k
  have first_mantissa : first.mantissa = m / 2 ^ k := by
    rw [mantissa_shiftRight, mantissa_ofMantissaAndAccuracy]
  rw [← first_mantissa] at bounded full
  have nearest : |(first.roundedMantissa : ℝ) - x| ≤ 1 / 2 ∧
      (|(first.roundedMantissa : ℝ) - x| = 1 / 2 → first.roundedMantissa % 2 = 0) :=
    ⟨holds.rounded, holds.even⟩
  -- Then it is shifted once more if rounding has carried.
  obtain ⟨le_rounded, rounded_le⟩ := mantissa_le_rounded first
  obtain ⟨same, scaled⟩ := shift_carry (r := first.roundedMantissa)
    (e := target m e) (by omega) least (full.imp_left fun full => full.trans le_rounded)
  have result : roundWithAccuracy .binary64 sign m e accuracy =
      let shifted := shiftToTargetExponent .binary64 first.roundedMantissa (target m e) .exact
      if h : shifted.1.mantissa = 0 then .zero sign
      else .finite sign shifted.1.mantissa shifted.2 (Nat.pos_of_ne_zero h) := by
    unfold roundWithAccuracy
    rw [shifted]
  rw [result]
  dsimp only
  by_cases zero : (shiftToTargetExponent .binary64 first.roundedMantissa (target m e)
      .exact).1.mantissa = 0
  · rw [zero, Nat.cast_zero, zero_mul] at same
    rw [dif_pos zero]
    exact ⟨trivial, first.roundedMantissa, by rw [← same, mul_zero]; rfl, nearest⟩
  · rw [dif_neg zero]
    exact ⟨scaled, first.roundedMantissa, by rw [valueOf_finite, same], nearest⟩

variable (holds : Holds (.ofMantissaAndAccuracy m accuracy) x) (low : e ≤ target m e)
include holds low

/-- The rounded result is a whole number of units, half a unit away at most. -/
theorem units_roundWithAccuracy :
    IsCanonical (roundWithAccuracy .binary64 sign m e accuracy) ∧ ∃ r : ℕ,
      valueOf (roundWithAccuracy .binary64 sign m e accuracy) =
        (sign.apply 1 : ℤ) * (r * (2 : ℝ) ^ target m e) ∧
      |(r : ℝ) * 2 ^ target m e - x * 2 ^ e| ≤ 2 ^ target m e * (1 / 2) := by
  obtain ⟨canonical, r, value, near, -⟩ :=
    exists_roundWithAccuracy sign pos low (holds.shiftRight _)
  refine ⟨canonical, r, value, ?_⟩
  rw [scaled_eq_target low, ← sub_mul, abs_mul, abs_of_pos (two_zpow_pos _), mul_comm]
  exact mul_le_mul_of_nonneg_left near (two_zpow_pos _).le

/-- A significand is rounded to the parts of a number. -/
theorem rounds_roundWithAccuracy :
    Rounds (roundWithAccuracy .binary64 sign m e accuracy)
      ((sign.apply 1 : ℤ) * (x * (2 : ℝ) ^ e)) := by
  have x_ge : (m : ℝ) ≤ x := by simpa using holds.mantissa_le
  have nonneg : 0 ≤ x * 2 ^ e := by
    have := (Nat.cast_nonneg m).trans x_ge
    have := two_zpow_pos e
    positivity
  obtain ⟨canonical, r, value, error⟩ := units_roundWithAccuracy sign pos holds low
  refine ⟨canonical, ?_⟩
  rw [Near, value, ← mul_sub, abs_mul, abs_mul, abs_apply_one, one_mul, one_mul,
    abs_of_nonneg nonneg]
  exact error.trans (half_unit_le pos e x_ge)

end

theorem log2_shiftLeft {m : Nat} (pos : 0 < m) (k : Nat) : (m <<< k).log2 = m.log2 + k := by
  rw [Nat.shiftLeft_eq, Nat.log2_eq_iff (by positivity), pow_add, Nat.add_right_comm, pow_add]
  exact ⟨Nat.mul_le_mul_right _ (Nat.log2_self_le pos.ne'),
    Nat.mul_lt_mul_of_pos_right Nat.lt_log2_self (by positivity)⟩

/-- A significand with a lower power stands for the same number. -/
theorem cast_shiftLeft (m k : Nat) (e : Int) :
    ((m <<< k : Nat) : ℝ) * 2 ^ (e - k) = m * 2 ^ e := by
  conv_rhs => rw [show e = k + (e - k) by omega, two_zpow_add, zpow_natCast, ← mul_assoc]
  rw [Nat.shiftLeft_eq, Nat.cast_mul, Nat.cast_pow, Nat.cast_ofNat]

/-- A significand with any power is rounded to the parts of a number. -/
theorem rounds_round (sign : Sign) {m : Nat} (pos : 0 < m) (e : Int) :
    Rounds (round .binary64 sign m e) ((sign.apply 1 : ℤ) * (m * (2 : ℝ) ^ e)) := by
  let shift := (e - target m e).toNat
  have same : target (m <<< shift) (e - shift) = target m e := by
    rw [target_eq, target_eq, log2_shiftLeft pos]
    congr 1
    omega
  have low : e - shift ≤ target (m <<< shift) (e - shift) := by rw [same]; omega
  have pos' : 0 < m <<< shift := by rw [Nat.shiftLeft_eq]; positivity
  rw [← cast_shiftLeft m shift e]
  exact rounds_roundWithAccuracy sign pos' (Holds.exact _) low

theorem rounds_normalize (n : Int) (e : Int) (sign : Sign) :
    Rounds (UnpackedFloat.normalize .binary64 n e sign) (n * (2 : ℝ) ^ e) := by
  unfold UnpackedFloat.normalize
  cases order : compare n 0 with
  | lt =>
      have negative : n < 0 := compare_lt_iff_lt.mp order
      have rounds := rounds_round .negative (m := (-n).toNat) (by omega) e
      have magnitude : (((-n).toNat : ℕ) : ℝ) = -n := by
        rw [← Int.cast_natCast, Int.toNat_of_nonneg (by omega), Int.cast_neg]
      rw [magnitude] at rounds
      simpa [Sign.apply] using rounds
  | eq =>
      have zero : n = 0 := compare_eq_iff_eq.mp order
      rw [zero, Int.cast_zero, zero_mul]
      exact rounds_zero sign
  | gt =>
      have positive : 0 < n := compare_gt_iff_gt.mp order
      have rounds := rounds_round .positive (m := n.toNat) (by omega) e
      have magnitude : ((n.toNat : ℕ) : ℝ) = n := by
        rw [← Int.cast_natCast, Int.toNat_of_nonneg (by omega)]
      rw [magnitude] at rounds
      simpa [Sign.apply] using rounds

/-! ## Operations -/

theorem apply_neg_one (sign : Sign) :
    (((-sign).apply 1 : ℤ) : ℝ) = -((sign.apply 1 : ℤ) : ℝ) := by
  cases sign
  · show ((1 : ℤ) : ℝ) = -((-1 : ℤ) : ℝ)
    norm_num
  · show ((-1 : ℤ) : ℝ) = -((1 : ℤ) : ℝ)
    norm_num

theorem apply_mul_one (s t : Sign) :
    (((s * t).apply 1 : ℤ) : ℝ) = (s.apply 1 : ℤ) * ((t.apply 1 : ℤ) : ℝ) := by
  cases s <;> cases t
  · show ((1 : ℤ) : ℝ) = ((-1 : ℤ) : ℝ) * ((-1 : ℤ) : ℝ)
    norm_num
  · show ((-1 : ℤ) : ℝ) = ((-1 : ℤ) : ℝ) * ((1 : ℤ) : ℝ)
    norm_num
  · show ((-1 : ℤ) : ℝ) = ((1 : ℤ) : ℝ) * ((-1 : ℤ) : ℝ)
    norm_num
  · show ((1 : ℤ) : ℝ) = ((1 : ℤ) : ℝ) * ((1 : ℤ) : ℝ)
    norm_num

/-- A significand with a lower power, with its sign. -/
theorem cast_apply_shiftLeft (sign : Sign) (m : Nat) (e low : Int) (le : low ≤ e) :
    ((sign.apply ((m <<< (e - low).toNat : Nat) : ℤ) : ℤ) : ℝ) * 2 ^ low =
      (sign.apply 1 : ℤ) * (m * (2 : ℝ) ^ e) := by
  have same := cast_shiftLeft m (e - low).toNat e
  rw [show e - (e - low).toNat = low by omega] at same
  rw [cast_apply, Int.cast_natCast, mul_assoc, same]

/-- A product has enough bits, or its power is below all others. -/
theorem le_target_mul {m m' : Nat} {e e' : Int} (pos : 0 < m) (pos' : 0 < m')
    (scaled : IsScaled m e) (scaled' : IsScaled m' e') :
    e + e' ≤ target (m * m') (e + e') := by
  obtain ⟨bounded, least, full⟩ := scaled
  obtain ⟨bounded', least', full'⟩ := scaled'
  rw [target_eq]
  by_cases subnormal : e + e' ≤ -1074
  · exact le_max_of_le_right subnormal
  · have bits : 2 ^ 52 ≤ m * m' := by
      rcases full with full | rfl
      · exact full.trans (Nat.le_mul_of_pos_right m pos')
      · rcases full' with full' | rfl
        · exact full'.trans (Nat.le_mul_of_pos_left m' pos)
        · omega
    have := (Nat.le_log2 (by positivity)).mpr bits
    omega

section
variable {p q : UnpackedFloat} (canonical : IsCanonical p) (canonical' : IsCanonical q)
include canonical canonical'

theorem rounds_add : Rounds (UnpackedFloat.add .binary64 p q) (valueOf p + valueOf q) := by
  cases p with
  | infinity | notANumber => cases canonical
  | zero sign =>
      cases q with
      | infinity | notANumber => cases canonical'
      | zero sign' =>
          have zero : valueOf (.zero sign) + valueOf (.zero sign') = 0 := add_zero 0
          rw [zero]
          unfold UnpackedFloat.add
          dsimp only
          split <;> exact rounds_zero _
      | finite sign' m' e' pos' =>
          rw [show valueOf (.zero sign) = 0 from rfl, zero_add]
          exact canonical'.rounds
  | finite sign m e pos =>
      cases q with
      | infinity | notANumber => cases canonical'
      | zero sign' =>
          rw [show valueOf (.zero sign') = 0 from rfl, add_zero]
          exact canonical.rounds
      | finite sign' m' e' pos' =>
          rw [valueOf_finite, valueOf_finite, ← cast_apply_shiftLeft sign m e _ (min_le_left e e'),
            ← cast_apply_shiftLeft sign' m' e' _ (min_le_right e e'), ← add_mul, ← Int.cast_add]
          exact rounds_normalize _ _ _

theorem rounds_sub : Rounds (UnpackedFloat.sub .binary64 p q) (valueOf p - valueOf q) := by
  cases p with
  | infinity | notANumber => cases canonical
  | zero sign =>
      cases q with
      | infinity | notANumber => cases canonical'
      | zero sign' =>
          have zero : valueOf (.zero sign) - valueOf (.zero sign') = 0 := sub_zero 0
          rw [zero]
          unfold UnpackedFloat.sub
          dsimp only
          split <;> exact rounds_zero _
      | finite sign' m' e' pos' =>
          have canonical : IsCanonical (.finite (-sign') m' e' pos') := canonical'
          have rounds := canonical.rounds
          rw [valueOf_finite, apply_neg_one, neg_mul, ← valueOf_finite sign' m' e' pos'] at rounds
          rw [show valueOf (.zero sign) = 0 from rfl, zero_sub]
          exact rounds
  | finite sign m e pos =>
      cases q with
      | infinity | notANumber => cases canonical'
      | zero sign' =>
          rw [show valueOf (.zero sign') = 0 from rfl, sub_zero]
          exact canonical.rounds
      | finite sign' m' e' pos' =>
          rw [valueOf_finite, valueOf_finite, ← cast_apply_shiftLeft sign m e _ (min_le_left e e'),
            ← cast_apply_shiftLeft sign' m' e' _ (min_le_right e e'), ← sub_mul, ← Int.cast_sub]
          exact rounds_normalize _ _ _

theorem rounds_mul : Rounds (UnpackedFloat.mul .binary64 p q) (valueOf p * valueOf q) := by
  cases p with
  | infinity | notANumber => cases canonical
  | zero sign =>
      cases q with
      | infinity | notANumber => cases canonical'
      | zero | finite =>
          rw [show valueOf (.zero sign) = 0 from rfl, zero_mul]
          exact rounds_zero _
  | finite sign m e pos =>
      cases q with
      | infinity | notANumber => cases canonical'
      | zero sign' =>
          rw [show valueOf (.zero sign') = 0 from rfl, mul_zero]
          exact rounds_zero _
      | finite sign' m' e' pos' =>
          have rounds := rounds_roundWithAccuracy (sign * sign') (Nat.mul_pos pos pos')
            (Holds.exact (m * m')) (le_target_mul pos pos' canonical canonical')
          have value : valueOf (.finite sign m e pos) * valueOf (.finite sign' m' e' pos') =
              ((sign * sign').apply 1 : ℤ) * (((m * m' : ℕ) : ℝ) * 2 ^ (e + e')) := by
            rw [valueOf_finite, valueOf_finite, apply_mul_one, two_zpow_add]
            push_cast
            ring
          rw [value]
          exact rounds

end

/-! ### Roots -/

/-- What the whole root and its remainder say of the root. -/
def rootAccuracy (n : Nat) : Accuracy :=
  if n - n.sqrt * n.sqrt = 0 then .exact
  else .inexact (if n - n.sqrt * n.sqrt ≤ n.sqrt then .lt else .gt)

theorem holds_root (n : Nat) : Holds (.ofMantissaAndAccuracy n.sqrt (rootAccuracy n)) √n := by
  have le : n.sqrt * n.sqrt ≤ n := Nat.sqrt_le n
  have lt : n < (n.sqrt + 1) * (n.sqrt + 1) := Nat.lt_succ_sqrt n
  unfold rootAccuracy
  generalize n.sqrt = root at le lt
  have nonneg : (0 : ℝ) ≤ root := Nat.cast_nonneg root
  have cast_lt : (n : ℝ) < (root + 1) ^ 2 := by
    rw [sq]
    exact_mod_cast lt
  split
  · have same : n = root * root := by omega
    show √(n : ℝ) = root
    rw [same, Nat.cast_mul, Real.sqrt_mul_self nonneg]
  · split
    · have above : (root : ℝ) ^ 2 < n := by
        rw [sq]
        exact_mod_cast (show root * root < n by omega)
      have below : (n : ℝ) < (root + 1 / 2) ^ 2 := by
        have : (n : ℝ) ≤ root * root + root := by
          exact_mod_cast (show n ≤ root * root + root by omega)
        linarith
      show (root : ℝ) < √n ∧ √n < root + 1 / 2
      exact ⟨Real.lt_sqrt_of_sq_lt above, (Real.sqrt_lt' (by linarith)).mpr below⟩
    · have above : (root + 1 / 2 : ℝ) ^ 2 < n := by
        have : (root * root + root + 1 : ℝ) ≤ n := by
          exact_mod_cast (show root * root + root + 1 ≤ n by omega)
        linarith
      show (root : ℝ) + 1 / 2 < √n ∧ √n < root + 1
      exact ⟨Real.lt_sqrt_of_sq_lt above, (Real.sqrt_lt' (by linarith)).mpr cast_lt⟩

/-- The power of the root, low enough that the root has as many bits as a number. -/
def rootPower (m : Nat) (e : Int) : Int :=
  min (e.ediv 2) (Format.binary64.targetExponent ((totalExponent m e + 1).ediv 2))

theorem rootPower_le (m : Nat) (e : Int) :
    2 * rootPower m e ≤ e ∧
      (rootPower m e ≤ -1074 ∨ 2 * rootPower m e + 104 ≤ m.log2 + e) := by
  have bits : (Format.binary64.mantissaBits : Int) = 53 := rfl
  have least : Format.binary64.minExponent = -1074 := rfl
  have div (a : Int) : a.ediv 2 = a / 2 := rfl
  rw [rootPower, Format.targetExponent, totalExponent, bits, least, div, div]
  omega

/-- A root has enough bits, or its power is below all others. -/
theorem le_target_root {n : Nat} (pos : 0 < n) {power : Int}
    (enough : power ≤ -1074 ∨ 104 ≤ n.log2) : power ≤ target n.sqrt power := by
  rw [target_eq]
  rcases enough with low | many
  · exact le_max_of_le_right low
  · have large : 2 ^ 104 ≤ n := (Nat.le_log2 pos.ne').mp many
    have root_large : 2 ^ 52 ≤ n.sqrt := Nat.le_sqrt'.mpr (by rw [← pow_mul]; exact large)
    have bits := (Nat.le_log2 (Nat.sqrt_pos.mpr pos).ne').mpr root_large
    exact le_max_of_le_left (by omega)

theorem sqrt_finite (m : Nat) (e : Int) (pos : 0 < m) :
    UnpackedFloat.sqrt .binary64 (.finite .positive m e pos) =
      roundWithAccuracy .binary64 .positive (m <<< (e - 2 * rootPower m e).toNat).sqrt
        (rootPower m e) (rootAccuracy (m <<< (e - 2 * rootPower m e).toNat)) := rfl

/-- The root of a number is that of a whole number with enough bits, rounded. -/
theorem exists_root {m : Nat} (pos : 0 < m) (e : Int) :
    ∃ n power, 0 < n.sqrt ∧ power ≤ target n.sqrt power ∧
      UnpackedFloat.sqrt .binary64 (.finite .positive m e pos) =
        roundWithAccuracy .binary64 .positive n.sqrt power (rootAccuracy n) ∧
      √(m * (2 : ℝ) ^ e) = √n * 2 ^ power := by
  obtain ⟨twice, low⟩ := rootPower_le m e
  rw [sqrt_finite]
  generalize rootPower m e = power at twice low
  have shift : ((e - 2 * power).toNat : Int) = e - 2 * power := by omega
  have bits := log2_shiftLeft pos (e - 2 * power).toNat
  have value := cast_shiftLeft m (e - 2 * power).toNat e
  have shifted_pos : 0 < m <<< (e - 2 * power).toNat := by
    rw [Nat.shiftLeft_eq]
    positivity
  rw [shift, show e - (e - 2 * power) = power * 2 by omega, zpow_mul] at value
  generalize m <<< (e - 2 * power).toNat = n at bits value shifted_pos
  refine ⟨n, power, Nat.sqrt_pos.mpr shifted_pos, ?_, rfl, ?_⟩
  · exact le_target_root shifted_pos (low.imp_right (by omega))
  · rw [← value, zpow_ofNat]
    simp [Real.sqrt_sq (two_zpow_pos power).le]

theorem rounds_sqrt {p : UnpackedFloat} (canonical : IsCanonical p) (nonneg : 0 ≤ valueOf p) :
    Rounds (UnpackedFloat.sqrt .binary64 p) √(valueOf p) := by
  cases p with
  | infinity | notANumber => cases canonical
  | zero sign =>
      rw [show valueOf (.zero sign) = 0 from rfl, Real.sqrt_zero]
      exact rounds_zero sign
  | finite sign m e pos =>
      cases sign with
      | negative =>
          have := scaled_pos pos e
          rw [valueOf_negative] at nonneg
          linarith
      | positive =>
          obtain ⟨n, power, root_pos, enough, result, root⟩ := exists_root pos e
          have rounds := rounds_roundWithAccuracy .positive root_pos (holds_root n) enough
          rw [valueOf_positive, result, root]
          simpa [Sign.apply] using rounds

end Trigger.Number
