import Trigger.Number.Reading
import Trigger.Proofs.Number.Nearest

/-!
# What is rounded to a number

A real number is rounded to a number if it is half way to one of its neighbours at most, and less if
the significand is odd, since of two numbers that are as near the even one is taken (`Around`).  A
decimal that lies so is read as the number, however it is read (`decimal_of_around`): a whole
number is rounded as it is, and a quotient is taken to so many bits that it is rounded as the exact
one would be, with the last bit in its place.
-/

namespace Trigger.Number

open Float.Model (UnpackedFloat Format totalExponent)
open Float.Model.UnpackedFloat

/-- How far below a number lies what is rounded to it, in quarters of a unit of its power.  Below
the least significand of a power the numbers lie twice as close. -/
def quarters (m : Nat) (e : Int) : Nat := if m = 2 ^ 52 ∧ -1074 < e then 1 else 2

/-- The real number is half way at most to the neighbours of a number, and less if the significand
is odd. -/
structure Around (m : Nat) (e : Int) (y : ℝ) : Prop where
  low : (m - quarters m e / 4) * 2 ^ e ≤ y
  high : y ≤ (m + 1 / 2) * 2 ^ e
  inside : m % 2 = 1 → (m - quarters m e / 4) * 2 ^ e < y ∧ y < (m + 1 / 2) * 2 ^ e

theorem quarters_le (m : Nat) (e : Int) : (quarters m e / 4 : ℝ) ≤ 1 / 2 := by
  unfold quarters
  split <;> norm_num

/-- A natural number is the nearest one if it is half a unit away, and less if it is odd. -/
theorem eq_of_half {r m : ℕ} {z : ℝ} (near : |(r : ℝ) - z| ≤ 1 / 2)
    (even : |(r : ℝ) - z| = 1 / 2 → r % 2 = 0) (near' : |(m : ℝ) - z| ≤ 1 / 2)
    (odd : m % 2 = 1 → |(m : ℝ) - z| < 1 / 2) : r = m := by
  have around : |(r : ℝ) - m| ≤ |(r : ℝ) - z| + |(m : ℝ) - z| := by
    rw [abs_sub_comm (m : ℝ)]
    exact abs_sub_le _ _ _
  by_contra apart
  have distance : (1 : ℝ) ≤ |(r : ℝ) - m| := by
    exact_mod_cast Int.one_le_abs (show (r : ℤ) - m ≠ 0 by omega)
  have neighbours : |(r : ℤ) - m| ≤ 1 := by
    have : |(r : ℝ) - m| ≤ 1 := by linarith
    exact_mod_cast this
  -- Both are half a unit away, on two sides, so one of them is odd.
  have parity := even (by linarith)
  have bounds := abs_le.mp neighbours
  have := odd (by omega)
  linarith

namespace Around

variable {m : Nat} {e : Int} {y : ℝ} (around : Around m e y)
include around

theorem pos (positive : 0 < m) : 2 ^ e * (1 / 2) ≤ y := by
  have := two_zpow_pos e
  have := quarters_le m e
  have one : (1 : ℝ) ≤ m := by exact_mod_cast positive
  calc (2 : ℝ) ^ e * (1 / 2)
    _ ≤ (m - quarters m e / 4) * 2 ^ e := by rw [mul_comm]; gcongr; linarith
    _ ≤ y := around.low

theorem lt (scaled : IsScaled m e) : y < 2 ^ (53 + e) := by
  have power := two_zpow_pos e
  have bounded : (m : ℝ) + 1 ≤ 2 ^ 53 := by exact_mod_cast scaled.1
  calc y
    _ ≤ (m + 1 / 2) * 2 ^ e := around.high
    _ < 2 ^ 53 * 2 ^ e := by gcongr; linarith
    _ = 2 ^ (53 + e) := by rw [two_zpow_add]; norm_num

/-- The bits of a real number give it the power of the number, or the power below it. -/
theorem power_cases (scaled : IsScaled m e) {bits : Int} (least : 2 ^ bits ≤ y)
    (greatest : y < 2 ^ (bits + 1)) :
    max (bits - 52) (-1074) = e ∨
      max (bits - 52) (-1074) = e - 1 ∧ m = 2 ^ 52 ∧ -1074 < e ∧ y < m * 2 ^ e := by
  have upper : bits < 53 + e :=
    (zpow_lt_zpow_iff_right₀ one_lt_two).mp (least.trans_lt (around.lt scaled))
  by_cases subnormal : e = -1074
  · left
    omega
  · have normal : -1074 < e := by have := scaled.2.1; omega
    have full := scaled.2.2.resolve_right subnormal
    have power := two_zpow_pos e
    -- What is around the number is not below a power of two.
    have lower {k : ℕ} (below : (2 : ℝ) ^ k ≤ m - quarters m e / 4) : (k : Int) + e < bits + 1 := by
      refine (zpow_lt_zpow_iff_right₀ one_lt_two).mp (lt_of_le_of_lt ?_ greatest)
      calc (2 : ℝ) ^ ((k : Int) + e)
        _ = 2 ^ k * 2 ^ e := by rw [two_zpow_add, zpow_natCast]
        _ ≤ (m - quarters m e / 4) * 2 ^ e := by gcongr
        _ ≤ y := around.low
    rcases full.eq_or_lt with same | above
    · have lower := lower (k := 51) (by rw [quarters, if_pos ⟨same.symm, normal⟩, ← same]; norm_num)
      by_cases bits_eq : bits = 51 + e
      · right
        refine ⟨by omega, same.symm, normal, ?_⟩
        calc y
          _ < 2 ^ (bits + 1) := greatest
          _ = 2 ^ (52 + e) := by rw [bits_eq]; congr 1; omega
          _ = m * 2 ^ e := by rw [two_zpow_add, ← same]; norm_num
      · left
        omega
    · have lower := lower (k := 52) (by
        have half := quarters_le m e
        have above : (2 : ℝ) ^ 52 + 1 ≤ m := by exact_mod_cast above
        linarith)
      left
      omega

/-- In units of its power a real number is half a unit away at most. -/
theorem abs_sub_le : |(m : ℝ) - y / 2 ^ e| ≤ 1 / 2 := by
  have power := two_zpow_pos e
  have low := (le_div_iff₀ power).mpr around.low
  have high := (div_le_iff₀ power).mpr around.high
  have := quarters_le m e
  exact abs_le.mpr ⟨by linarith, by linarith⟩

theorem abs_sub_lt (odd : m % 2 = 1) : |(m : ℝ) - y / 2 ^ e| < 1 / 2 := by
  have power := two_zpow_pos e
  obtain ⟨low, high⟩ := around.inside odd
  have low := (lt_div_iff₀ power).mpr low
  have high := (div_lt_iff₀ power).mpr high
  have := quarters_le m e
  exact abs_lt.mpr ⟨by linarith, by linarith⟩

/-- A natural number of units that is the nearest one to a real number around a number, and the even
one of two that are as near, has the value of the number. -/
theorem value_eq (scaled : IsScaled m e) {bits : Int} (least : 2 ^ bits ≤ y)
    (greatest : y < 2 ^ (bits + 1)) {r : ℕ} {unit : Int} (unit_eq : unit = max (bits - 52) (-1074))
    (near : |(r : ℝ) - y / 2 ^ unit| ≤ 1 / 2)
    (even : |(r : ℝ) - y / 2 ^ unit| = 1 / 2 → r % 2 = 0) : (r : ℝ) * 2 ^ unit = m * 2 ^ e := by
  rcases around.power_cases scaled least greatest with eq | ⟨eq, rfl, normal, below⟩ <;>
    obtain rfl := unit_eq.trans eq
  · rw [eq_of_half near even around.abs_sub_le around.abs_sub_lt]
  · have positive := two_zpow_pos (e - 1)
    have halved : (2 : ℝ) ^ e = 2 * 2 ^ (e - 1) := by
      rw [← zpow_one_add₀ two_ne_zero]
      congr 1
      omega
    have quarter : quarters (2 ^ 52) e = 1 := if_pos ⟨rfl, normal⟩
    have low := around.low
    rw [quarter, halved] at low
    rw [halved] at below ⊢
    push_cast at low below ⊢
    have least : (2 : ℝ) ^ 53 - 1 / 2 ≤ y / 2 ^ (e - 1) := by
      rw [le_div_iff₀ positive]
      linarith
    have greatest : y / 2 ^ (e - 1) < 2 ^ 53 := by
      rw [div_lt_iff₀ positive]
      linarith
    have r_eq : r = 2 ^ 53 := by
      refine eq_of_half near even ?_ (by norm_num)
      push_cast
      exact abs_le.mpr ⟨by linarith, by linarith⟩
    rw [r_eq]
    push_cast
    ring

end Around

section
variable {m : Nat} {e : Int} (positive : 0 < m) (scaled : IsScaled m e) {n : Nat} {power : Int}
  {z : ℝ} (pos : 0 < n) (around : Around m e (z * 2 ^ power))
include scaled pos around

/-- What is around a number is rounded to it. -/
theorem roundWithAccuracy_of_around {accuracy : Accuracy} (low : power ≤ target n power)
    (least : 2 ^ n.log2 ≤ z) (greatest : z < 2 ^ (n.log2 + 1))
    (holds : Holds (ExtendedMantissa.ofMantissaAndAccuracy n accuracy >>>
      (target n power - power).toNat) (z / 2 ^ (target n power - power).toNat)) :
    roundWithAccuracy .binary64 .positive n power accuracy = .finite .positive m e positive := by
  have unit := two_zpow_pos power
  have least : (2 : ℝ) ^ (n.log2 + power) ≤ z * 2 ^ power := by
    rw [two_zpow_add, zpow_natCast]
    gcongr
  have greatest : z * 2 ^ power < 2 ^ (n.log2 + power + 1) := by
    rw [add_right_comm, two_zpow_add, ← Nat.cast_add_one, zpow_natCast]
    gcongr
  have units : z / 2 ^ (target n power - power).toNat = z * 2 ^ power / 2 ^ target n power := by
    rw [scaled_eq_target low, mul_div_cancel_right₀ _ (two_zpow_pos _).ne']
  obtain ⟨canonical, r, value, near, even⟩ :=
    exists_roundWithAccuracy .positive pos low holds
  have one : ((Sign.positive.apply 1 : ℤ) : ℝ) = 1 := Int.cast_one
  rw [one, one_mul] at value
  rw [units] at near even
  have same := around.value_eq scaled least greatest (target_eq n power) near even
  rw [same, ← valueOf_positive m e positive] at value
  have scaled_positive := scaled_pos positive e
  rw [← valueOf_positive m e positive, ← value] at scaled_positive
  exact eq_of_valueOf_eq canonical scaled scaled_positive value

end

/-! ## Quotients -/

/-- A natural number with a last bit that tells whether anything is left. -/
def Sticky (n : Nat) (z : ℝ) : Prop := z = n ∨ n % 2 = 1 ∧ n - 1 < z ∧ z < n + 1

namespace Sticky

variable {n : Nat} {z : ℝ} (sticky : Sticky n z)
include sticky

/-- The last bit has the exact result rounded in the right way once two bits are shifted out. -/
theorem holds {k : Nat} (enough : 2 ≤ k) :
    Holds (ExtendedMantissa.ofMantissaAndAccuracy n .exact >>> k) (z / 2 ^ k) := by
  rcases sticky with rfl | ⟨odd, low, high⟩
  · exact (Holds.exact n).shiftRight k
  · induction k, enough using Nat.le_induction with
    | base =>
        have halves : (n : ℝ) = 2 * (n / 2 : ℕ) + 1 := by
          exact_mod_cast (odd ▸ Nat.div_add_mod n 2).symm
        have quarters : ((n / 2 : ℕ) : ℝ) = 2 * (n / 2 / 2 : ℕ) + (n / 2 % 2 : ℕ) := by
          exact_mod_cast (Nat.div_add_mod (n / 2) 2).symm
        show Holds (ExtendedMantissa.shiftRightOne (ExtendedMantissa.shiftRightOne ⟨n, _, _⟩)) _
        rcases Nat.mod_two_eq_zero_or_one (n / 2) with parity | parity <;>
          rw [parity] at quarters <;>
          simp only [Holds, ExtendedMantissa.shiftRightOne, odd, parity, Nat.cast_zero,
            Nat.cast_one] at quarters ⊢ <;>
          exact ⟨by linarith, by linarith⟩
    | succ k _ ih =>
        rw [pow_succ, ← div_div]
        exact ih.shiftRightOne

/-- The exact result has as many bits. -/
theorem bounds (many : 2 ≤ n) : 2 ^ n.log2 ≤ z ∧ z < 2 ^ (n.log2 + 1) := by
  have least : 2 ^ n.log2 ≤ n := Nat.log2_self_le (by omega)
  have greatest : n < 2 ^ (n.log2 + 1) := Nat.lt_log2_self
  rcases sticky with rfl | ⟨odd, low, high⟩
  · exact ⟨by exact_mod_cast least, by exact_mod_cast greatest⟩
  · have bits : 1 ≤ n.log2 := (Nat.le_log2 (by omega)).mpr many
    obtain ⟨half, eq⟩ : 2 ∣ 2 ^ n.log2 := dvd_pow_self 2 (by omega)
    have least : 2 ^ n.log2 + 1 ≤ n := by omega
    have least : (2 : ℝ) ^ n.log2 + 1 ≤ n := by exact_mod_cast least
    have greatest : (n : ℝ) + 1 ≤ 2 ^ (n.log2 + 1) := by exact_mod_cast greatest
    constructor <;> linarith

end Sticky

/-- A quotient with a last bit. -/
theorem sticky_div (a : Nat) {b : Nat} (pos : 0 < b) :
    Sticky (2 * (a / b) + if a % b = 0 then 0 else 1) (2 * (a / b)) := by
  have divided : (a : ℝ) = b * (a / b : ℕ) + (a % b : ℕ) := by
    exact_mod_cast (Nat.div_add_mod a b).symm
  have less : ((a % b : ℕ) : ℝ) < b := by exact_mod_cast Nat.mod_lt a pos
  have pos : (0 : ℝ) < b := by exact_mod_cast pos
  split
  · rename_i whole
    left
    rw [whole, Nat.cast_zero, add_zero] at divided
    have exact_div : (a / b : ℝ) = (a / b : ℕ) := by
      rw [div_eq_iff pos.ne', mul_comm]
      exact divided
    rw [exact_div]
    push_cast
    ring
  · rename_i rest
    have positive : (0 : ℝ) < (a % b : ℕ) := by exact_mod_cast Nat.pos_of_ne_zero rest
    refine .inr ⟨by omega, ?_⟩
    push_cast
    constructor
    · rw [add_sub_cancel_right, mul_lt_mul_iff_right₀ two_pos, lt_div_iff₀ pos]
      linarith
    · rw [mul_div_assoc', div_lt_iff₀ pos]
      linarith

/-! ## Reading decimals -/

theorem round_eq (sign : Sign) (n : Nat) (power : Int) :
    UnpackedFloat.round .binary64 sign n power =
      roundWithAccuracy .binary64 sign (n <<< (power - target n power).toNat)
        (power - (power - target n power).toNat) .exact := rfl

section
variable {m : Nat} {e : Int} (positive : 0 < m) (scaled : IsScaled m e)
include scaled

/-- A natural number is rounded as it is. -/
theorem ofNat_of_around {n : Nat} (pos : 0 < n) (around : Around m e n) :
    ofNat n = ofParts (.finite .positive m e positive) := by
  have whole := cast_shiftLeft n (0 - target n 0).toNat 0
  rw [ofNat, rounded, if_neg pos.ne', round_eq]
  have low : 0 - ((0 - target n 0).toNat : Int) ≤
      target (n <<< (0 - target n 0).toNat) (0 - (0 - target n 0).toNat) := by
    rw [target_eq, target_eq, log2_shiftLeft pos]
    omega
  generalize (0 - target n 0).toNat = shift at *
  have pos' : 0 < n <<< shift := by rw [Nat.shiftLeft_eq]; positivity
  congr 1
  refine roundWithAccuracy_of_around positive scaled (z := (n <<< shift : ℕ)) pos' ?_ low ?_ ?_
    ((Holds.exact _).shiftRight _)
  · rw [whole, zpow_zero, mul_one]
    exact around
  · exact_mod_cast Nat.log2_self_le pos'.ne'
  · exact_mod_cast Nat.lt_log2_self

/-- A number with a last bit is rounded as the exact one if it has enough bits. -/
theorem rounded_of_sticky {n : Nat} {power : Int} {z : ℝ} (sticky : Sticky n z)
    (many : 2 ^ 54 ≤ n) (around : Around m e (z * 2 ^ power)) :
    rounded .positive n power = ofParts (.finite .positive m e positive) := by
  have bits := (Nat.le_log2 (by omega)).mpr many
  have enough : power + 2 ≤ target n power := by rw [target_eq]; omega
  obtain ⟨least, greatest⟩ := sticky.bounds (by omega)
  rw [rounded, if_neg (by omega), round_eq, show (power - target n power).toNat = 0 by omega,
    Nat.shiftLeft_zero, Nat.cast_zero, sub_zero]
  congr 1
  exact roundWithAccuracy_of_around positive scaled (by omega) around (by omega) least greatest
    (sticky.holds (by omega))

/-- A quotient is rounded as the exact one. -/
theorem quotient_of_around {a b : Nat} (pos : 0 < a) (pos' : 0 < b) (around : Around m e (a / b)) :
    quotient a b = ofParts (.finite .positive m e positive) := by
  have large : 2 ^ 63 * b ≤ a <<< (b.log2 + 64) :=
    calc 2 ^ 63 * b
      _ ≤ 2 ^ 63 * 2 ^ (b.log2 + 1) := Nat.mul_le_mul_left _ Nat.lt_log2_self.le
      _ = 2 ^ (b.log2 + 64) := by rw [← pow_add]; congr 1; omega
      _ ≤ a <<< (b.log2 + 64) := by
        rw [Nat.shiftLeft_eq]
        exact Nat.le_mul_of_pos_left _ pos
  have many := (Nat.le_div_iff_mul_le pos').mpr large
  have shifted : 2 * ((a <<< (b.log2 + 64) : ℕ) / b : ℝ) * 2 ^ (-(b.log2 + 64 + 1 : ℕ) : ℤ) =
      a / b := by
    rw [Nat.shiftLeft_eq, zpow_neg, zpow_natCast]
    push_cast
    field_simp
    ring
  rw [← shifted] at around
  exact rounded_of_sticky positive scaled (sticky_div _ pos') (by omega) around

/-- A decimal that is around a number is read as this number. -/
theorem decimal_of_around (fits : e ≤ 971) {digits : Nat} {power : Int}
    (around : Around m e (digits * 10 ^ power)) :
    decimal digits power = ofParts (.finite .positive m e positive) := by
  have least := around.pos positive
  have greatest := around.lt scaled
  have nonzero : digits ≠ 0 := by
    rintro rfl
    have := two_zpow_pos e
    rw [Nat.cast_zero, zero_mul] at least
    linarith
  have pos := Nat.pos_of_ne_zero nonzero
  have not_large : ¬ (powerLimit : Int) < power := by
    intro large
    have large : 2048 < power := large
    refine absurd greatest (not_lt.mpr ?_)
    calc (2 : ℝ) ^ (53 + e)
      _ ≤ 2 ^ power := two_zpow_le (by omega)
      _ ≤ 10 ^ power := zpow_le_zpow_left₀ (by omega) (by norm_num) (by norm_num)
      _ ≤ digits * 10 ^ power := le_mul_of_one_le_left (by positivity) (by exact_mod_cast pos)
  have not_small : ¬ power < -(powerLimit + digits.log2 : Nat) := by
    intro small
    have small : power < -(2048 + digits.log2 : Nat) := small
    have bits : (digits : ℝ) < 2 ^ (digits.log2 + 1) := by exact_mod_cast Nat.lt_log2_self
    have tens : (10 : ℝ) ^ power ≤ 2 ^ power := by
      have inverse : (2 : ℝ) ^ (-power) ≤ 10 ^ (-power) :=
        zpow_le_zpow_left₀ (by omega) (by norm_num) (by norm_num)
      rw [zpow_neg, zpow_neg] at inverse
      exact (inv_le_inv₀ (two_zpow_pos _) (by positivity)).mp inverse
    refine absurd least (not_le.mpr ?_)
    calc (digits : ℝ) * 10 ^ power
      _ ≤ digits * 2 ^ power := by gcongr
      _ < 2 ^ (digits.log2 + 1) * 2 ^ power := by
        have := two_zpow_pos power
        gcongr
      _ = 2 ^ ((digits.log2 + 1 : ℕ) + power) := by rw [two_zpow_add, zpow_natCast]
      _ ≤ 2 ^ (e + -1) := two_zpow_le (by have := scaled.2.1; omega)
      _ = 2 ^ e * (1 / 2) := by rw [two_zpow_add]; norm_num
  rw [decimal, if_neg nonzero, if_neg not_large, if_neg not_small]
  split
  · rename_i whole
    obtain ⟨k, rfl⟩ := Int.eq_ofNat_of_zero_le whole
    refine ofNat_of_around positive scaled (Nat.mul_pos pos (Nat.pow_pos (by omega))) ?_
    rw [zpow_natCast] at around
    exact_mod_cast around
  · rename_i broken
    obtain ⟨k, rfl⟩ : ∃ k : ℕ, power = -k := ⟨(-power).toNat, by omega⟩
    refine quotient_of_around positive scaled pos (Nat.pow_pos (by omega)) ?_
    rw [zpow_neg, zpow_natCast, ← div_eq_mul_inv] at around
    simpa using around

end

end Trigger.Number
