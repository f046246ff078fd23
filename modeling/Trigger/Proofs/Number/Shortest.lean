import Trigger.Number.Shortest
import Trigger.Proofs.Number.Around

/-!
# The shortest decimal is around its number

The search for the shortest decimal compares natural numbers.  What these stand for are real numbers
that are around the number, in the sense of rounding (`around_of_covers`).  Seventeen digits are
enough for a grid that is finer than the interval is wide, and one of the two points around the
number lies in the interval then.  So the search ends with a decimal that is around the number
(`around_shortest`).
-/

namespace Trigger.Number

theorem pow_toNat {b : ℝ} (nonzero : b ≠ 0) (k : ℤ) : b ^ k.toNat = b ^ k * b ^ (-k).toNat := by
  rw [← zpow_natCast, ← zpow_natCast, ← zpow_add₀ nonzero]
  congr 1
  omega

theorem two_pow_le_ten_pow {a k : ℕ} (le : a ≤ 3 * k) : 2 ^ a ≤ 10 ^ k :=
  calc 2 ^ a
    _ ≤ 2 ^ (3 * k) := Nat.pow_le_pow_right (by omega) le
    _ = (2 ^ 3) ^ k := pow_mul 2 3 k
    _ ≤ 10 ^ k := Nat.pow_le_pow_left (by omega) k

namespace Interval

variable {i : Interval}

/-! ## Points of an interval -/

/-- The real number lies in the interval. -/
structure Covers (i : Interval) (y : ℝ) : Prop where
  low : i.low ≤ y * i.scale
  high : y * i.scale ≤ i.high
  inside : i.closed = false → i.low < y * i.scale ∧ y * i.scale < i.high

theorem holds_iff (i : Interval) (point : Nat) :
    i.holds point = true ↔ (i.low ≤ point ∧ point ≤ i.high) ∧
      (i.closed = false → i.low < point ∧ point < i.high) := by
  unfold holds
  cases i.closed with
  | true => simp
  | false =>
      simp only [Bool.false_eq_true, if_false, Bool.and_eq_true, decide_eq_true_eq, true_imp_iff]
      omega

theorem covers_of_holds {digits : Nat} {power : Int}
    (holds : (i.inUnit power).holds (digits * (i.inUnit power).scale) = true) :
    i.Covers (digits * 10 ^ power) := by
  obtain ⟨⟨low, high⟩, inside⟩ := (holds_iff _ _).mp holds
  have up : (0 : ℝ) < 10 ^ (-power).toNat := by positivity
  have point : ((digits * (i.inUnit power).scale : ℕ) : ℝ) =
      digits * 10 ^ power * i.scale * 10 ^ (-power).toNat := by
    show ((digits * (i.scale * 10 ^ power.toNat) : ℕ) : ℝ) = _
    push_cast
    rw [pow_toNat (by norm_num)]
    ring
  have low_eq : (((i.inUnit power).low : ℕ) : ℝ) = i.low * 10 ^ (-power).toNat := by
    show ((i.low * 10 ^ (-power).toNat : ℕ) : ℝ) = _
    push_cast
    rfl
  have high_eq : (((i.inUnit power).high : ℕ) : ℝ) = i.high * 10 ^ (-power).toNat := by
    show ((i.high * 10 ^ (-power).toNat : ℕ) : ℝ) = _
    push_cast
    rfl
  have le_iff (a b : ℝ) : a * 10 ^ (-power).toNat ≤ b * 10 ^ (-power).toNat ↔ a ≤ b :=
    mul_le_mul_iff_left₀ up
  have lt_iff (a b : ℝ) : a * 10 ^ (-power).toNat < b * 10 ^ (-power).toNat ↔ a < b :=
    mul_lt_mul_iff_left₀ up
  rw [← Nat.cast_le (α := ℝ), point, low_eq, le_iff] at low
  rw [← Nat.cast_le (α := ℝ), point, high_eq, le_iff] at high
  rw [← Nat.cast_lt (α := ℝ), ← Nat.cast_lt (α := ℝ), point, low_eq, high_eq, lt_iff, lt_iff]
    at inside
  exact ⟨low, high, inside⟩

/-! ## Grids -/

theorem holds_of_gridPoint? {digits : Nat} (found : i.gridPoint? = some digits) :
    i.holds (digits * i.scale) = true := by
  unfold gridPoint? at found
  dsimp only at found
  split at found
  · rename_i below above
    obtain rfl := Option.some.inj found
    split
    · exact below
    · exact above
  · rename_i below _
    exact Option.some.inj found ▸ below
  · rename_i _ above
    exact Option.some.inj found ▸ above
  · cases found

/-- A grid that is finer than the interval is wide has a point in it. -/
theorem gridPoint?_ne_none (pos : 0 < i.scale) (low : i.low < i.value) (high : i.value < i.high)
    (wide : i.low + i.scale < i.high) : i.gridPoint? ≠ none := by
  have inside (point : Nat) (low : i.low < point) (high : point < i.high) :
      i.holds point = true :=
    (holds_iff i point).mpr ⟨⟨low.le, high.le⟩, fun _ => ⟨low, high⟩⟩
  have divided := Nat.div_add_mod i.value i.scale
  rw [Nat.mul_comm] at divided
  have rest := Nat.mod_lt i.value pos
  have next : (i.value / i.scale + 1) * i.scale = i.value / i.scale * i.scale + i.scale :=
    Nat.succ_mul _ _
  unfold gridPoint?
  dsimp only
  split
  · exact nofun
  · exact nofun
  · exact nofun
  · rename_i below above
    by_cases under : i.low < i.value / i.scale * i.scale
    · rw [inside _ under (by omega)] at below
      cases below
    · rw [inside _ (by omega) (by omega)] at above
      cases above

theorem gridPoint?_inUnit_ne_none {power : Int} (pos : 0 < i.scale) (low : i.low < i.value)
    (high : i.value < i.high) (wide : i.low + 10 ^ power * i.scale < (i.high : ℝ)) :
    (i.inUnit power).gridPoint? ≠ none := by
  have up : 0 < 10 ^ (-power).toNat := Nat.pow_pos (by omega)
  refine gridPoint?_ne_none (Nat.mul_pos pos (Nat.pow_pos (by omega)))
    (Nat.mul_lt_mul_of_pos_right low up) (Nat.mul_lt_mul_of_pos_right high up) ?_
  show i.low * 10 ^ (-power).toNat + i.scale * 10 ^ power.toNat < i.high * 10 ^ (-power).toNat
  have up : (0 : ℝ) < 10 ^ (-power).toNat := by positivity
  have scaled := mul_lt_mul_of_pos_right wide up
  rw [add_mul, mul_right_comm, ← pow_toNat (by norm_num), mul_comm (10 ^ power.toNat)] at scaled
  exact_mod_cast scaled

/-- The search finds a point on one of its grids if there is any. -/
theorem covers_search {magnitude : Int} {fuel count : Nat}
    (found : ∃ k < fuel, (i.inUnit (magnitude - (count + k : Nat))).gridPoint? ≠ none) :
    i.Covers ((i.search magnitude fuel count).digits *
      10 ^ (i.search magnitude fuel count).power) := by
  induction fuel generalizing count with
  | zero =>
      obtain ⟨k, lt, -⟩ := found
      exact absurd lt (Nat.not_lt_zero k)
  | succ fuel ih =>
      unfold search
      split
      · rename_i digits point
        exact covers_of_holds (holds_of_gridPoint? point)
      · rename_i none
        obtain ⟨k, lt, point⟩ := found
        cases k with
        | zero => exact absurd none point
        | succ k => exact ih ⟨k, by omega, by rwa [Nat.add_right_comm, Nat.add_assoc]⟩

/-! ## The first digit -/

theorem le_leadingZeros {scale fuel : Nat} (shift value : Nat)
    (enough : scale ≤ value * 10 ^ fuel) :
    ∃ k, leadingZeros scale fuel shift value = shift + k ∧ scale ≤ value * 10 ^ k := by
  induction fuel generalizing shift value with
  | zero => exact ⟨0, rfl, enough⟩
  | succ fuel ih =>
      unfold leadingZeros
      split
      · rename_i reached
        exact ⟨0, rfl, by simpa using reached⟩
      · obtain ⟨k, eq, reached⟩ := ih (shift + 1) (value * 10) (by
          rw [Nat.mul_assoc, ← Nat.pow_succ']
          exact enough)
        refine ⟨k + 1, by omega, ?_⟩
        rw [Nat.pow_succ', ← Nat.mul_assoc]
        exact reached

/-- A number is not below the power of ten that its first digit counts. -/
theorem zpow_magnitude_le (pos : 0 < i.scale) (enough : i.scale ≤ i.value * 10 ^ 400) :
    (10 : ℝ) ^ (i.magnitude - 1) * i.scale ≤ i.value := by
  unfold magnitude
  split
  · rename_i whole
    have quotient_pos : 0 < i.value / i.scale := Nat.div_pos whole pos
    have digits_pos : 0 < (Nat.toDigits 10 (i.value / i.scale)).length := Nat.length_toDigits_pos
    have least : 10 ^ ((Nat.toDigits 10 (i.value / i.scale)).length - 1) ≤ i.value / i.scale := by
      by_contra few
      by_cases one : (Nat.toDigits 10 (i.value / i.scale)).length = 1
      · rw [one] at few
        omega
      · have := (Nat.length_toDigits_le_iff (by omega) (by omega)).mpr (not_le.mp few)
        omega
    have least := (Nat.le_div_iff_mul_le pos).mp least
    rw [show ((Nat.toDigits 10 (i.value / i.scale)).length : Int) - 1 =
      ((Nat.toDigits 10 (i.value / i.scale)).length - 1 : ℕ) by omega, zpow_natCast]
    exact_mod_cast least
  · obtain ⟨k, eq, reached⟩ := le_leadingZeros 0 i.value enough
    have reached : (i.scale : ℝ) ≤ i.value * 10 ^ k := by exact_mod_cast reached
    rw [eq, Nat.zero_add, show (1 - (k : Int) - 1) = -k by omega, zpow_neg, zpow_natCast,
      inv_mul_le_iff₀ (by positivity), mul_comm]
    exact reached

/-! ## The interval of a number -/

section
variable {m : Nat} {e : Int}

theorem low_ofSignificand (m : Nat) (e : Int) :
    (ofSignificand m e).low = (4 * m - quarters m e) * 2 ^ (e - 2).toNat := by
  unfold ofSignificand quarters
  simp only [Bool.and_eq_true, decide_eq_true_eq]
  rfl

/-- The numerators of a number and of the ends of its interval, over their denominator. -/
theorem numerators (positive : 0 < m) :
    ((ofSignificand m e).value : ℝ) = m * 2 ^ e * (ofSignificand m e).scale ∧
      ((ofSignificand m e).low : ℝ) =
        (m - quarters m e / 4) * 2 ^ e * (ofSignificand m e).scale ∧
      ((ofSignificand m e).high : ℝ) = (m + 1 / 2) * 2 ^ e * (ofSignificand m e).scale := by
  have up : ((2 ^ (e - 2).toNat : ℕ) : ℝ) = 2 ^ e / 4 * (ofSignificand m e).scale := by
    have shift : (2 : ℝ) ^ e = 2 ^ (e - 2) * 4 := by
      rw [show e = e - 2 + 2 by omega, two_zpow_add, add_sub_cancel_right]
      norm_num
    have scale : ((ofSignificand m e).scale : ℝ) = 2 ^ (-(e - 2)).toNat := by
      rw [neg_sub]
      exact Nat.cast_pow 2 _
    rw [Nat.cast_pow, Nat.cast_ofNat, pow_toNat two_ne_zero, scale, shift]
    ring
  have small : quarters m e ≤ 4 * m := by
    unfold quarters
    split <;> omega
  refine ⟨?_, ?_, ?_⟩
  · show ((4 * m * 2 ^ (e - 2).toNat : ℕ) : ℝ) = _
    rw [Nat.cast_mul, up]
    push_cast
    ring
  · rw [low_ofSignificand, Nat.cast_mul, up, Nat.cast_sub small]
    push_cast
    ring
  · show (((4 * m + 2) * 2 ^ (e - 2).toNat : ℕ) : ℝ) = _
    rw [Nat.cast_mul, up]
    push_cast
    ring

theorem scale_pos (m : Nat) (e : Int) : 0 < (ofSignificand m e).scale := Nat.pow_pos (by omega)

/-- What lies in the interval of a number is around the number. -/
theorem around_of_covers (positive : 0 < m) {y : ℝ} (covers : (ofSignificand m e).Covers y) :
    Around m e y := by
  have scale : (0 : ℝ) < (ofSignificand m e).scale := by exact_mod_cast scale_pos m e
  obtain ⟨-, low_eq, high_eq⟩ := numerators (m := m) (e := e) positive
  obtain ⟨low, high, inside⟩ := covers
  rw [low_eq, high_eq] at inside
  rw [low_eq] at low
  rw [high_eq] at high
  refine ⟨le_of_mul_le_mul_right low scale, le_of_mul_le_mul_right high scale, fun odd => ?_⟩
  have closed : (ofSignificand m e).closed = false := decide_eq_false (by omega)
  obtain ⟨low, high⟩ := inside closed
  exact ⟨lt_of_mul_lt_mul_right low scale.le, lt_of_mul_lt_mul_right high scale.le⟩

theorem low_lt_value (positive : 0 < m) :
    (ofSignificand m e).low < (ofSignificand m e).value := by
  have less : 4 * m - quarters m e < 4 * m := by
    unfold quarters
    split <;> omega
  rw [low_ofSignificand]
  exact Nat.mul_lt_mul_of_pos_right less (Nat.pow_pos (by omega))

theorem value_lt_high (m : Nat) (e : Int) :
    (ofSignificand m e).value < (ofSignificand m e).high :=
  Nat.mul_lt_mul_of_pos_right (by omega) (Nat.pow_pos (by omega))

/-- With seventeen digits the grid is finer than the interval is wide. -/
theorem unit_lt (scaled : IsScaled m e) {unit : ℝ} (fine : unit * 10 ^ 16 ≤ m * 2 ^ e) :
    unit < (quarters m e / 4 + 1 / 2) * 2 ^ e := by
  have power := two_zpow_pos e
  unfold quarters
  split
  · rename_i least
    rw [least.1] at fine
    push_cast at fine ⊢
    linarith
  · have bounded : (m : ℝ) < 2 ^ 53 := by exact_mod_cast scaled.1
    have bounded : m * (2 : ℝ) ^ e < 2 ^ 53 * 2 ^ e := by gcongr
    push_cast
    linarith

theorem scale_le (positive : 0 < m) (scaled : IsScaled m e) :
    (ofSignificand m e).scale ≤ (ofSignificand m e).value * 10 ^ 400 := by
  have value_pos : 0 < (ofSignificand m e).value :=
    (Nat.zero_le _).trans_lt (low_lt_value positive)
  calc (ofSignificand m e).scale
    _ ≤ 10 ^ 400 := two_pow_le_ten_pow (by have := scaled.2.1; omega)
    _ ≤ (ofSignificand m e).value * 10 ^ 400 := Nat.le_mul_of_pos_left _ value_pos

end

end Interval

/-- The shortest decimal of a number is around the number. -/
theorem around_shortest {m : Nat} {e : Int} (positive : 0 < m) (scaled : IsScaled m e) :
    Around m e ((shortest m e).digits * 10 ^ (shortest m e).power) := by
  obtain ⟨value_eq, low_eq, high_eq⟩ := Interval.numerators (m := m) (e := e) positive
  have scale_pos := Interval.scale_pos m e
  have scale : (0 : ℝ) < (Interval.ofSignificand m e).scale := by exact_mod_cast scale_pos
  have first := Interval.zpow_magnitude_le scale_pos (Interval.scale_le positive scaled)
  rw [value_eq] at first
  have first := le_of_mul_le_mul_right first scale
  refine Interval.around_of_covers positive (Interval.covers_search ⟨16, by omega, ?_⟩)
  refine Interval.gridPoint?_inUnit_ne_none scale_pos (Interval.low_lt_value positive)
    (Interval.value_lt_high m e) ?_
  have fine : (10 : ℝ) ^ ((Interval.ofSignificand m e).magnitude - (1 + 16 : ℕ)) * 10 ^ 16 ≤
      m * 2 ^ e := by
    rw [← zpow_natCast, ← zpow_add₀ (by norm_num)]
    refine le_trans (le_of_eq ?_) first
    congr 1
    omega
  have unit := Interval.unit_lt scaled fine
  rw [low_eq, high_eq, ← add_mul]
  refine mul_lt_mul_of_pos_right ?_ scale
  linarith

end Trigger.Number
