import Mathlib.Analysis.Real.Sqrt
import Mathlib.Data.EReal.Basic
import Trigger.Proofs.Number.Stored

/-!
# Numbers as real numbers

A number that is finite stands for a real number.  Canonical parts are those of such a number, or
the power is too large and they become an infinity.  So an operation has the rounded result, unless
this is an infinity; and finite numbers compare as the real numbers do.  With the infinities, all
numbers compare as extended real numbers (`lt_iff_extended`).
-/

namespace Trigger.Number

open Float.Model (UnpackedFloat Format)
open Float.Model.UnpackedFloat

/-! ## Comparison -/

theorem scaled_lt_of_lt {m m' : Nat} {e e' : Int} (bounded : m < 2 ^ 53) (full : 2 ^ 52 ≤ m')
    (less : e < e') : (m : ℝ) * 2 ^ e < m' * 2 ^ e' := by
  have bounded : (m : ℝ) < 2 ^ 53 := by exact_mod_cast bounded
  have full : (2 : ℝ) ^ 52 ≤ m' := by exact_mod_cast full
  have power := two_zpow_pos e
  calc (m : ℝ) * 2 ^ e
    _ < 2 ^ 53 * 2 ^ e := by gcongr
    _ = 2 ^ 52 * 2 ^ (e + 1) := by rw [two_zpow_add]; norm_num; ring
    _ ≤ m' * 2 ^ e' := by
      have := two_zpow_pos (e + 1)
      have := two_zpow_le (show e + 1 ≤ e' by omega)
      gcongr

/-- Significands with powers compare like those of numbers. -/
theorem scaled_lt_iff {m m' : Nat} {e e' : Int} (canonical : IsScaled m e)
    (canonical' : IsScaled m' e') :
    (m : ℝ) * 2 ^ e < m' * 2 ^ e' ↔ (compare e e').then (compare m m') = .lt := by
  obtain ⟨bounded, least, full⟩ := canonical
  obtain ⟨bounded', least', full'⟩ := canonical'
  rcases lt_trichotomy e e' with less | rfl | greater
  · have lt := scaled_lt_of_lt bounded (full'.resolve_right (by omega)) less
    simp [compare_lt_iff_lt.mpr less, lt]
  · have power := two_zpow_pos e
    rw [compare_eq_iff_eq.mpr rfl, Ordering.then_eq_lt]
    simp [compare_lt_iff_lt, mul_lt_mul_iff_left₀ power]
  · have lt := scaled_lt_of_lt bounded' (full.resolve_right (by omega)) greater
    simp [compare_gt_iff_gt.mpr greater, lt.le]

/-- Canonical parts compare as the real numbers that they stand for. -/
theorem compare_eq_lt_iff {p q : UnpackedFloat} (canonical : IsCanonical p)
    (canonical' : IsCanonical q) :
    p.compare q = some .lt ↔ valueOf p < valueOf q := by
  cases p with
  | infinity | notANumber => cases canonical
  | zero sign =>
      cases q with
      | infinity | notANumber => cases canonical'
      | zero sign' => simp [UnpackedFloat.compare, valueOf]
      | finite sign' m' e' pos' =>
          have pos := scaled_pos pos' e'
          cases sign'
          · rw [valueOf_negative]
            simp [UnpackedFloat.compare, valueOf, pos.le]
          · rw [valueOf_positive]
            simp [UnpackedFloat.compare, valueOf, pos]
  | finite sign m e pos =>
      have positive := scaled_pos pos e
      cases q with
      | infinity | notANumber => cases canonical'
      | zero sign' =>
          cases sign
          · rw [valueOf_negative]
            simp [UnpackedFloat.compare, valueOf, positive]
          · rw [valueOf_positive]
            simp [UnpackedFloat.compare, valueOf, positive.le]
      | finite sign' m' e' pos' =>
          have positive' := scaled_pos pos' e'
          cases sign <;> cases sign'
          · rw [valueOf_negative, valueOf_negative, neg_lt_neg_iff,
              scaled_lt_iff canonical' canonical]
            simp only [UnpackedFloat.compare, Option.some.injEq, Ordering.swap_then,
              Int.compare_swap, Nat.compare_swap]
          · rw [valueOf_negative, valueOf_positive]
            have lt : -(m * 2 ^ e : ℝ) < m' * 2 ^ e' := by linarith
            simp [UnpackedFloat.compare, lt]
          · rw [valueOf_negative, valueOf_positive]
            have le : -(m' * 2 ^ e' : ℝ) ≤ m * 2 ^ e := by linarith
            simp [UnpackedFloat.compare, le]
          · rw [valueOf_positive, valueOf_positive, scaled_lt_iff canonical canonical']
            simp [UnpackedFloat.compare]

/-! ## Finite numbers -/

/-- The number stands for a real number. -/
def Finite (x : Float) : Prop := IsCanonical (parts x)

/-- The real number that a number stands for, zero if it stands for none. -/
noncomputable def real (x : Float) : ℝ := valueOf (parts x)

/-- The parts stand for no real number. -/
def Special (p : UnpackedFloat) : Prop := p = .notANumber ∨ ∃ sign, p = .infinity sign

theorem finite_or_special (x : Float) : Finite x ∧ Fits (parts x) ∨ Special (parts x) := by
  rcases parts_cases x with none | infinite | finite
  · exact .inr (.inl none)
  · exact .inr (.inr infinite)
  · exact .inl finite

theorem Special.not_canonical {p : UnpackedFloat} (special : Special p) : ¬ IsCanonical p := by
  rcases special with rfl | ⟨sign, rfl⟩ <;> exact id

theorem Special.not_finite {p : UnpackedFloat} (special : Special p) : ¬ Finite (ofParts p) := by
  rcases special with rfl | ⟨sign, rfl⟩
  · exact id
  · cases sign <;> exact id

/-- Finite numbers compare as the real numbers that they stand for. -/
theorem lt_iff_real {x y : Float} (finite : Finite x) (finite' : Finite y) :
    x < y ↔ real x < real y := by
  rw [lt_iff]
  exact compare_eq_lt_iff finite finite'

/-- The parts of a finite result are those that have been packed. -/
theorem real_ofParts {p : UnpackedFloat} (canonical : IsCanonical p)
    (finite : Finite (ofParts p)) : real (ofParts p) = valueOf p := by
  have fits : Fits p := by
    cases p with
    | finite sign m e pos =>
        by_contra large
        rw [Finite, parts_ofParts_of_large (Int.not_le.mp large)] at finite
        exact finite
    | _ => trivial
  rw [real, parts_ofParts_of_fits canonical fits]

theorem abs_valueOf (sign : Sign) (m : Nat) (e : Int) (pos : 0 < m) :
    |valueOf (.finite sign m e pos)| = m * 2 ^ e := by
  rw [valueOf_finite, abs_mul, abs_apply_one, one_mul, abs_of_pos (scaled_pos pos e)]

/-- Finite numbers are less than two to the power of 1024. -/
theorem abs_real_lt {x : Float} (finite : Finite x) : |real x| < 2 ^ (1024 : ℤ) := by
  obtain ⟨canonical, fits⟩ | special := finite_or_special x
  · unfold Finite real at *
    cases eq : parts x with
    | infinity | notANumber => rw [eq] at canonical; cases canonical
    | zero sign =>
        rw [show valueOf (.zero sign) = 0 from rfl, abs_zero]
        exact two_zpow_pos _
    | finite sign m e pos =>
        rw [eq] at canonical fits
        rw [abs_valueOf]
        have bounded : (m : ℝ) < 2 ^ 53 := by exact_mod_cast canonical.1
        have power := two_zpow_pos e
        calc (m : ℝ) * 2 ^ e
          _ < 2 ^ 53 * 2 ^ e := by gcongr
          _ ≤ 2 ^ 53 * 2 ^ (971 : ℤ) := by
            have := two_zpow_le (show e ≤ 971 from fits)
            gcongr
          _ = 2 ^ (1024 : ℤ) := by rw [← zpow_natCast, ← two_zpow_add]; rfl
  · exact absurd finite special.not_canonical

/-- Parts with a power that is too large stand for no less. -/
theorem le_abs_valueOf {p : UnpackedFloat} (canonical : IsCanonical p)
    (infinite : ¬ Finite (ofParts p)) : 2 ^ (1024 : ℤ) ≤ |valueOf p| := by
  have large : ¬ Fits p := by
    intro fits
    rw [Finite, parts_ofParts_of_fits canonical fits] at infinite
    exact infinite canonical
  cases p with
  | finite sign m e pos =>
      have large : 972 ≤ e := Int.not_le.mp large
      rw [abs_valueOf]
      have full : 2 ^ 52 ≤ m := canonical.2.2.resolve_right (by omega)
      have full : (2 : ℝ) ^ 52 ≤ m := by exact_mod_cast full
      have power := two_zpow_pos 972
      calc (2 : ℝ) ^ (1024 : ℤ)
        _ = 2 ^ 52 * 2 ^ (972 : ℤ) := by rw [← zpow_natCast, ← two_zpow_add]; rfl
        _ ≤ m * 2 ^ e := by
          have := two_zpow_le large
          gcongr
  | _ => exact absurd trivial large

theorem real_abs {x : Float} (finite : Finite x) : Finite x.abs ∧ real x.abs = |real x| := by
  obtain ⟨canonical, fits⟩ | special := finite_or_special x
  · have same : IsCanonical (parts x).abs ∧ Fits (parts x).abs ∧
        valueOf (parts x).abs = |valueOf (parts x)| := by
      unfold Finite at canonical
      cases eq : parts x with
      | infinity | notANumber => rw [eq] at canonical; cases canonical
      | zero sign => exact ⟨trivial, trivial, abs_zero.symm⟩
      | finite sign m e pos =>
          rw [eq] at canonical fits
          exact ⟨canonical, fits, by rw [abs_valueOf]; exact valueOf_positive m e pos⟩
    have stored : parts x.abs = (parts x).abs := parts_ofParts_of_fits same.1 same.2.1
    rw [Finite, real, stored]
    exact ⟨same.1, same.2.2⟩
  · exact absurd finite special.not_canonical

/-! ## Operations -/

theorem Rounds.near_real {p : UnpackedFloat} {x : ℝ} (rounds : Rounds p x)
    (finite : Finite (ofParts p)) : Near (real (ofParts p)) x := by
  rw [real_ofParts rounds.canonical finite]
  exact rounds.near

theorem special_add {p q : UnpackedFloat} (special : Special p ∨ Special q) :
    Special (UnpackedFloat.add .binary64 p q) := by
  rcases special with (rfl | ⟨sign, rfl⟩) | (rfl | ⟨sign, rfl⟩)
  · exact .inl rfl
  · cases q with
    | infinity sign' => cases sign <;> cases sign' <;> first | exact .inl rfl | exact .inr ⟨_, rfl⟩
    | notANumber => exact .inl rfl
    | _ => exact .inr ⟨_, rfl⟩
  · cases p <;> exact .inl rfl
  · cases p with
    | infinity sign' => cases sign <;> cases sign' <;> first | exact .inl rfl | exact .inr ⟨_, rfl⟩
    | notANumber => exact .inl rfl
    | _ => exact .inr ⟨_, rfl⟩

theorem special_mul {p q : UnpackedFloat} (special : Special p ∨ Special q) :
    Special (UnpackedFloat.mul .binary64 p q) := by
  rcases special with (rfl | ⟨sign, rfl⟩) | (rfl | ⟨sign, rfl⟩)
  · exact .inl rfl
  · cases q <;> first | exact .inl rfl | exact .inr ⟨_, rfl⟩
  · cases p <;> exact .inl rfl
  · cases p <;> first | exact .inl rfl | exact .inr ⟨_, rfl⟩

theorem finite_of_not_special {x y : Float} (ordinary : ¬ (Special (parts x) ∨ Special (parts y))) :
    Finite x ∧ Finite y := by
  obtain ⟨first, second⟩ := not_or.mp ordinary
  exact ⟨((finite_or_special x).resolve_right first).1,
    ((finite_or_special y).resolve_right second).1⟩

/-- A finite sum is one of finite numbers, rounded. -/
theorem finite_add {x y : Float} (finite : Finite (x + y)) :
    (Finite x ∧ Finite y) ∧ Near (real (x + y)) (real x + real y) := by
  have operands := finite_of_not_special fun special => (special_add special).not_finite finite
  exact ⟨operands, (rounds_add operands.1 operands.2).near_real finite⟩

/-- A finite product is one of finite numbers, rounded. -/
theorem finite_mul {x y : Float} (finite : Finite (x * y)) :
    (Finite x ∧ Finite y) ∧ Near (real (x * y)) (real x * real y) := by
  have operands := finite_of_not_special fun special => (special_mul special).not_finite finite
  exact ⟨operands, (rounds_mul operands.1 operands.2).near_real finite⟩

/-- A finite number that is less than the size of a difference is less than that of the rounded
difference, which may be too large for a number. -/
theorem exists_lt_abs_sub {s x y : Float} (finite : Finite s) (finite' : Finite x)
    (finite'' : Finite y) (less : s < (x - y).abs) :
    ∃ v, Near v (real x - real y) ∧ real s < |v| := by
  have rounds := rounds_sub finite' finite''
  refine ⟨_, rounds.near, ?_⟩
  by_cases bounded : Finite (x - y)
  · have same : valueOf (UnpackedFloat.sub .binary64 (parts x) (parts y)) = real (x - y) :=
      (real_ofParts rounds.canonical bounded).symm
    rw [same]
    obtain ⟨finite_abs, size⟩ := real_abs bounded
    rw [← size]
    exact (lt_iff_real finite finite_abs).mp less
  · have large := le_abs_valueOf rounds.canonical bounded
    have small := abs_lt.mp (abs_real_lt finite)
    exact small.2.trans_le large

theorem sqrt_lt_of_finite {x : Float} (finite : Finite x) : √(real x) < 2 ^ (512 : ℤ) := by
  refine (Real.sqrt_lt' (two_zpow_pos 512)).mpr ?_
  rw [← zpow_natCast, ← zpow_mul]
  exact (le_abs_self _).trans_lt (abs_real_lt finite)

/-- A rounded result is not much larger than the exact one. -/
theorem near_lt {y x : ℝ} (near : Near y x) (nonneg : 0 ≤ x) (small : x < 2 ^ (512 : ℤ)) :
    |y| < 2 ^ (1024 : ℤ) := by
  have relative_le : relative ≤ 1 := zpow_le_one_of_nonpos₀ one_le_two (by norm_num)
  have absolute_le : absolute ≤ 1 := zpow_le_one_of_nonpos₀ one_le_two (by norm_num)
  rw [Near, abs_of_nonneg nonneg] at near
  have part : x * relative ≤ x := mul_le_of_le_one_right nonneg relative_le
  have size : |y| ≤ |y - x| + x := by
    simpa [abs_of_nonneg nonneg] using abs_add_le (y - x) x
  have four : (4 : ℝ) ≤ 2 ^ (512 : ℤ) :=
    calc (4 : ℝ)
      _ = 2 ^ (2 : ℤ) := by norm_num
      _ ≤ 2 ^ (512 : ℤ) := two_zpow_le (by norm_num)
  rw [show (1024 : ℤ) = 512 + 512 from rfl, two_zpow_add]
  generalize (2 : ℝ) ^ (512 : ℤ) = bound at small four ⊢
  have := mul_le_mul_of_nonneg_right four (by linarith : 0 ≤ bound)
  linarith

/-- The root of a finite number is finite, and rounded. -/
theorem finite_sqrt {x : Float} (finite : Finite x) (nonneg : 0 ≤ real x) :
    Finite x.sqrt ∧ Near (real x.sqrt) √(real x) := by
  have rounds := rounds_sqrt finite nonneg
  have bounded : Finite x.sqrt := by
    by_contra infinite
    have large := le_abs_valueOf rounds.canonical infinite
    have small := near_lt rounds.near (Real.sqrt_nonneg _) (sqrt_lt_of_finite finite)
    exact absurd large (not_le.mpr small)
  exact ⟨bounded, rounds.near_real bounded⟩

/-! ## The order of all numbers -/

/-- The extended real number that a number stands for, if it is a number. -/
noncomputable def extended (x : Float) : EReal :=
  match parts x with
  | .infinity .positive => ⊤
  | .infinity .negative => ⊥
  | p => (valueOf p : ℝ)

theorem extended_of_finite {x : Float} (finite : Finite x) : extended x = (real x : EReal) := by
  unfold extended real
  unfold Finite at finite
  cases eq : parts x with
  | infinity => rw [eq] at finite; cases finite
  | _ => rfl

theorem isNaN_of_finite {x : Float} (finite : Finite x) : x.isNaN = false := by
  show (parts x).isNaN = false
  unfold Finite at finite
  cases eq : parts x with
  | notANumber => rw [eq] at finite; cases finite
  | _ => rfl

theorem number_cases {x : Float} (number : x.isNaN = false) :
    Finite x ∨ ∃ sign, parts x = .infinity sign := by
  rcases finite_or_special x with ⟨finite, -⟩ | none | infinite
  · exact .inl finite
  · have isNaN : x.isNaN = (parts x).isNaN := rfl
    rw [isNaN, none] at number
    cases number
  · exact .inr infinite

/-- Numbers compare as the extended real numbers that they stand for. -/
theorem lt_iff_extended {x y : Float} (number : x.isNaN = false) (number' : y.isNaN = false) :
    x < y ↔ extended x < extended y := by
  rcases number_cases number with finite | ⟨sign, infinite⟩
  · rcases number_cases number' with finite' | ⟨sign', infinite'⟩
    · rw [extended_of_finite finite, extended_of_finite finite', EReal.coe_lt_coe_iff]
      exact lt_iff_real finite finite'
    · rw [extended_of_finite finite, extended, infinite', lt_iff, infinite']
      unfold Finite at finite
      cases eq : parts x with
      | infinity | notANumber => rw [eq] at finite; cases finite
      | zero | finite => cases sign' <;> simp [UnpackedFloat.compare]
  · rw [extended, infinite, lt_iff, infinite]
    rcases number_cases number' with finite' | ⟨sign', infinite'⟩
    · rw [extended_of_finite finite']
      unfold Finite at finite'
      cases eq : parts y with
      | infinity | notANumber => rw [eq] at finite'; cases finite'
      | zero | finite => cases sign <;> simp [UnpackedFloat.compare]
    · have below : compare Sign.negative Sign.positive = .lt := rfl
      rw [extended, infinite']
      cases sign <;> cases sign' <;> simp [UnpackedFloat.compare, below]

theorem le_iff_not_lt {x y : Float} (number : x.isNaN = false) (number' : y.isNaN = false) :
    x ≤ y ↔ ¬ y < x := by
  obtain ⟨order, eq⟩ := exists_compare (parts_ne_of_number number) (parts_ne_of_number number')
  rw [le_iff, lt_iff, compare_swap (parts x), eq]
  cases order <;> decide

theorem not_lt_of_lt {x y : Float} (number : x.isNaN = false) (number' : y.isNaN = false)
    (less : x < y) : ¬ y < x := by
  rw [lt_iff_extended number number'] at less
  rw [lt_iff_extended number' number]
  exact less.not_gt

theorem lt_of_lt_of_not_lt {x y z : Float} (number : x.isNaN = false) (number' : y.isNaN = false)
    (number'' : z.isNaN = false) (less : x < y) (not_less : ¬ z < y) : x < z := by
  rw [lt_iff_extended number number'] at less
  rw [lt_iff_extended number'' number'] at not_less
  rw [lt_iff_extended number number'']
  exact less.trans_le (not_lt.mp not_less)

end Trigger.Number
