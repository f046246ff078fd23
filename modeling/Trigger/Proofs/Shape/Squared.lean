import Trigger.Proofs.Number.Signs
import Trigger.Proofs.Shape.Agreement

/-!
# Squares decide like distances

A bound compares the square of a distance with the square of its limit, if they are further apart
than its slack.  The comparison of the rounded root with the limit has the same outcome then:

* The slack is at least seven relative errors of rounding of the squared limit, and half the least
  number with a full significand (`slack_ge`).
* So the exact squares are apart by six such errors and a quarter of this number
  (`gap_of_slack_lt`).
* The errors in the squared limit and in the root make less than that (`lt_root_of_gap`,
  `root_lt_of_gap`).

Where the squared limit or the slack is infinite, nothing is above the slack, and the root is taken.
A limit that a text writes has no sign, and neither has the square of a distance.  So the shape of a
text decides exactly on all that it measures (`Shape.exact_of_specialize?`).
-/

namespace Trigger

open Float.Model (UnpackedFloat Format)
open Float.Model.UnpackedFloat

namespace Number

/-! ## Errors of rounding -/

section
variable {square limit product part slack distance root v : ℝ}

/-- The slack is no less than seven errors of rounding of the squared limit. -/
theorem slack_ge (nonneg : 0 ≤ square) (nonneg' : 0 ≤ product) (nonneg'' : 0 ≤ part)
    (first : Near product (square * 4)) (second : Near part (product * (2 * relative)))
    (third : Near slack (part + leastFull)) :
    7 * relative * square + leastFull / 2 ≤ slack := by
  have pos := leastFull_pos
  have first := (first.bounds (by positivity)).1
  have second := (second.bounds (by have := relative_pos; positivity)).1
  have third := (third.bounds (by positivity)).1
  simp only [relative_eq] at *
  linarith

/-- Where a rounded difference is above the slack, the exact one is nearly so. -/
theorem gap_of_slack_lt (nonneg : 0 ≤ square)
    (slack_ge : 7 * relative * square + leastFull / 2 ≤ slack)
    (near : Near v (distance - square)) (above : slack < |v|) :
    6 * relative * square + leastFull / 4 < |distance - square| := by
  have pos := leastFull_pos
  have size : |v| ≤ |v - (distance - square)| + |distance - square| := by
    simpa using abs_add_le (v - (distance - square)) (distance - square)
  rw [Near, absolute_eq] at near
  simp only [relative_eq] at *
  linarith

/-- The square of a sum with the least error, where the product of the two is left out. -/
theorem sq_add_error_le (a : ℝ) :
    (a + relative * leastFull) ^ 2 ≤ a ^ 2 * (1 + relative) + 2 * relative * leastFull := by
  have product := sq_nonneg (a - leastFull)
  have small : leastFull ^ 2 ≤ leastFull := by
    have pos := leastFull_pos
    have le_one := leastFull_le_one
    nlinarith
  simp only [relative_eq]
  nlinarith

/-- A square that is far above the squared limit has a root above the limit. -/
theorem lt_root_of_gap (nonneg : 0 ≤ distance)
    (near : Near square (limit * limit)) (near' : Near root √distance)
    (gap : square + (6 * relative * square + leastFull / 4) < distance) : limit < root := by
  by_contra le
  have pos := leastFull_pos
  have limit_nonneg := mul_self_nonneg limit
  have root_ge := (near'.bounds (Real.sqrt_nonneg _)).1
  have square_ge := (near.bounds limit_nonneg).1
  have root_le : √distance * (1 - relative) ≤ limit + relative * leastFull := by linarith
  have low : 0 ≤ √distance * (1 - relative) := by
    have : 0 ≤ 1 - relative := by rw [relative_eq]; norm_num
    have := Real.sqrt_nonneg distance
    positivity
  have squared := pow_le_pow_left₀ low root_le 2
  have error := sq_add_error_le limit
  rw [mul_pow, Real.sq_sqrt nonneg] at squared
  simp only [relative_eq] at *
  linarith

/-- A square that is far below the squared limit has a root below the limit. -/
theorem root_lt_of_gap (limit_nonneg : 0 ≤ limit) (nonneg : 0 ≤ distance)
    (near : Near square (limit * limit)) (near' : Near root √distance)
    (gap : distance + (6 * relative * square + leastFull / 4) < square) : root < limit := by
  by_contra le
  have pos := leastFull_pos
  have root_le := (near'.bounds (Real.sqrt_nonneg _)).2
  have square_le := (near.bounds (mul_self_nonneg _)).2
  have limit_le : limit ≤ √distance * (1 + relative) + relative * leastFull := by linarith
  have squared := pow_le_pow_left₀ limit_nonneg limit_le 2
  have error := sq_add_error_le (√distance * (1 + relative))
  rw [mul_pow, Real.sq_sqrt nonneg] at error
  simp only [relative_eq] at *
  linarith

end

end Number

open Number

namespace DistanceBound

/-! ## Bounds -/

theorem parts_epsilon : parts epsilon = .finite .positive (2 ^ 52) (-104) (by decide) := rfl

theorem parts_leastNormal :
    parts leastNormal = .finite .positive (2 ^ 52) (-1074) (by decide) := rfl

theorem parts_four : parts 4 = .finite .positive (2 ^ 52) (-50) (by decide) := rfl

theorem real_epsilon : real epsilon = 2 * relative := by
  rw [real, parts_epsilon, valueOf_positive, relative_eq]
  norm_num

theorem real_leastNormal : real leastNormal = leastFull := by
  rw [real, parts_leastNormal, valueOf_positive, leastFull, Nat.cast_pow, ← zpow_natCast,
    Nat.cast_ofNat, ← two_zpow_add]
  rfl

theorem real_four : real 4 = 4 := by
  rw [real, parts_four, valueOf_positive]
  norm_num

variable (b : DistanceBound)

theorem unsigned_product : Unsigned (b.limitSquared * 4) :=
  unsigned_mul (unsigned_square b.limit) (unsigned_of_parts parts_four)

theorem unsigned_part : Unsigned (b.limitSquared * 4 * epsilon) :=
  unsigned_mul b.unsigned_product (unsigned_of_parts parts_epsilon)

theorem unsigned_slack : Unsigned b.slack :=
  unsigned_add b.unsigned_part (unsigned_of_parts parts_leastNormal)

/-- What is above the slack is above a finite number. -/
theorem finite_slack {x : Float} (less : b.slack < x) : Finite b.slack := by
  rcases finite_or_special b.slack with ⟨finite, -⟩ | none | ⟨sign, infinite⟩
  · exact finite
  · rw [lt_iff, none] at less
    cases less
  · have unsigned := b.unsigned_slack
    rw [Unsigned, infinite] at unsigned
    obtain rfl : sign = .positive := unsigned
    rw [lt_iff, infinite] at less
    cases eq : parts x with
    | infinity sign' => rw [eq] at less; cases sign' <;> cases less
    | _ => rw [eq] at less; cases less

/-- A finite slack comes from a finite limit, and it is large enough. -/
theorem bounds_of_finite_slack (finite : Finite b.slack) :
    Finite b.limit ∧ Finite b.limitSquared ∧
      Near (real b.limitSquared) (real b.limit * real b.limit) ∧
      7 * relative * real b.limitSquared + leastFull / 2 ≤ real b.slack := by
  obtain ⟨⟨finite_part, -⟩, near_slack⟩ := finite_add finite
  obtain ⟨⟨finite_product, -⟩, near_part⟩ := finite_mul finite_part
  obtain ⟨⟨finite_square, -⟩, near_product⟩ := finite_mul finite_product
  obtain ⟨⟨finite_limit, -⟩, near_square⟩ := finite_mul finite_square
  rw [real_leastNormal] at near_slack
  rw [real_epsilon] at near_part
  rw [real_four] at near_product
  exact ⟨finite_limit, finite_square, near_square,
    slack_ge (nonneg_of_unsigned (unsigned_square b.limit)) (nonneg_of_unsigned b.unsigned_product)
      (nonneg_of_unsigned b.unsigned_part) near_product near_part near_slack⟩

/-- A number that is none is at no distance from the squared limit. -/
theorem not_slack_lt_of_isNaN {squared : Float} (none : squared.isNaN = true) :
    ¬ b.slack < (squared - b.limitSquared).abs := by
  have difference : (parts squared).sub .binary64 (parts b.limitSquared) = .notANumber := by
    rw [parts_of_isNaN none]
    rfl
  have away : parts (squared - b.limitSquared).abs = .notANumber := by
    show parts (ofParts (parts (ofParts ((parts squared).sub .binary64
      (parts b.limitSquared)))).abs) = _
    rw [difference]
    rfl
  rw [lt_iff, away, compare_notANumber]
  decide

/-- Far from the squared limit, the squares compare like the root and the limit. -/
theorem order?_of_slack_lt (limit : 0 ≤ b.limit ∨ b.limit.isNaN = true) {squared : Float}
    (measured : 0 ≤ squared ∨ squared.isNaN = true)
    (far : b.slack < (squared - b.limitSquared).abs) :
    order? squared b.limitSquared = order? squared.sqrt b.limit := by
  obtain ⟨finite_limit, finite_square, near, slack_ge⟩ :=
    b.bounds_of_finite_slack (b.finite_slack far)
  rcases measured with nonneg | none
  · rcases nonneg_cases nonneg with infinite | ⟨finite, nonneg⟩
    · have root := parts_sqrt_of_infinite infinite
      rw [order?_infinity infinite finite_square, order?_infinity root finite_limit]
    · obtain ⟨v, near_difference, above⟩ :=
        exists_lt_abs_sub (b.finite_slack far) finite finite_square far
      obtain ⟨finite_root, near_root⟩ := finite_sqrt finite nonneg
      have square_nonneg : 0 ≤ real b.limitSquared := nonneg_of_unsigned (unsigned_square b.limit)
      have gap := gap_of_slack_lt square_nonneg slack_ge near_difference above
      have apart : 0 < 6 * relative * real b.limitSquared + leastFull / 4 := by
        have := relative_pos
        have := leastFull_pos
        positivity
      rcases lt_abs.mp gap with above | below
      · have root := lt_root_of_gap nonneg near near_root (by linarith)
        rw [(order?_of_real_lt finite_square finite (by linarith)).2,
          (order?_of_real_lt finite_limit finite_root root).2]
      · have limit_nonneg := nonneg_of_finite limit finite_limit
        have root := root_lt_of_gap limit_nonneg nonneg near near_root (by linarith)
        rw [(order?_of_real_lt finite finite_square (by linarith)).1,
          (order?_of_real_lt finite_root finite_limit root).1]
  · exact absurd far (b.not_slack_lt_of_isNaN none)

/-- A square decides as its rounded root, if neither it nor the limit is below zero. -/
theorem exact_of_measured (limit : 0 ≤ b.limit ∨ b.limit.isNaN = true) {squared : Float}
    (measured : 0 ≤ squared ∨ squared.isNaN = true) : b.Exact squared := by
  unfold Exact holds
  split
  · rename_i far
    rw [b.order?_of_slack_lt limit measured far]
  · rfl

/-- The square of each distance, an infinite one or none at all too, decides as the comparison of
the rounded root with the limit. -/
theorem holds_eq_holds_root (limit : 0 ≤ b.limit) {squared : Float}
    (measured : 0 ≤ squared ∨ squared.isNaN = true) :
    b.holds squared = b.op.holds (order? squared.sqrt b.limit) :=
  b.exact_of_measured (.inl limit) measured

/-- Below the root of two, which rounds up. -/
def belowRootTwo : DistanceBound := ⟨.less, Number.decimal 14142135623730951 (-16)⟩

/-- The squares would decide otherwise here: two is below the squared limit. -/
theorem holds_eq_holds_root_two : 0 ≤ belowRootTwo.limit ∧ (0 : Float) ≤ 2 ∧
    order? 2 belowRootTwo.limitSquared = some .lt ∧ belowRootTwo.holds 2 = false ∧
    belowRootTwo.holds 2 = belowRootTwo.op.holds (order? (Float.sqrt 2) belowRootTwo.limit) := by
  have limit : 0 ≤ belowRootTwo.limit := by decide +kernel
  have measured : (0 : Float) ≤ 2 := by decide +kernel
  exact ⟨limit, measured, by decide +kernel, by decide +kernel,
    belowRootTwo.holds_eq_holds_root limit (.inl measured)⟩

/-- The bounds of a text decide on all squares of distances as on the distances. -/
theorem exact_squaredDistance (unsigned : Unsigned b.limit) (p q : Point) :
    b.Exact (squaredDistance p q) :=
  b.exact_of_measured (measured_of_unsigned unsigned) (measured_squaredDistance p q)

end DistanceBound

/-! ## Specialized texts -/

/-- The numbers that a pattern captures are written without a sign. -/
theorem Pattern.unsigned_of_captures? {ps : Pattern} {cs : List Char} {c : Captures}
    (found : captures? ps cs = some c) : ∀ n ∈ c.numbers, Unsigned n := by
  induction ps generalizing cs c with
  | nil =>
      simp only [captures?, Option.ite_none_right_eq_some, Option.some.injEq] at found
      obtain ⟨-, rfl⟩ := found
      exact List.forall_mem_nil _
  | cons p ps ih =>
      cases p with
      | text expected =>
          obtain ⟨rest, -, behind⟩ := Option.bind_eq_some_iff.mp found
          exact ih behind
      | access =>
          obtain ⟨_, _, rest, -, -, behind⟩ := access_of_captures? found
          exact ih behind
      | ordering ops =>
          obtain ⟨⟨op, rest⟩, -, more⟩ := Option.bind_eq_some_iff.mp found
          obtain ⟨c, behind, rfl⟩ := Option.map_eq_some_iff.mp more
          exact fun n mem => ih behind n mem
      | number =>
          obtain ⟨⟨n, rest⟩, first, more⟩ := Option.bind_eq_some_iff.mp found
          obtain ⟨c, behind, rfl⟩ := Option.map_eq_some_iff.mp more
          obtain ⟨⟨whole, fraction, tail⟩, -, same⟩ := Option.map_eq_some_iff.mp first
          cases same
          intro m mem
          rcases List.mem_cons.mp mem with rfl | mem
          · exact unsigned_ofFixed whole fraction 0
          · exact ih behind m mem

namespace Shape

variable {cs : List Char} {form : Form} {shape : Shape}

theorem unsigned_of_leaf? (found : leaf? cs = some (form, shape)) :
    ∀ bound ∈ shape.bounds, Unsigned bound.limit := by
  simp only [leaf?, Option.orElse_eq_orElse, Option.orElse_eq_or, Option.or_eq_some_iff,
    Option.map_eq_some_iff, Prod.mk.injEq] at found
  rcases found with ⟨_, known, -, rfl⟩ | ⟨-, ⟨_, known, -, rfl⟩ | ⟨-, ⟨_, known, -, rfl⟩ |
    ⟨-, ⟨_, known, -, rfl⟩ | ⟨-, _, known, -, rfl⟩⟩⟩⟩
  · unfold truth? at known
    split at known
    · cases known
      exact List.forall_mem_nil _
    · split at known <;> cases known
      exact List.forall_mem_nil _
  · unfold distanceRange? at known
    split at known <;> cases known
    rename_i matched
    have unsigned := Pattern.unsigned_of_captures? matched
    simpa [bounds] using unsigned
  · unfold distance? at known
    split at known <;> cases known
    rename_i matched
    have unsigned := Pattern.unsigned_of_captures? matched
    simpa [bounds] using unsigned
  · unfold healthFraction? at known
    split at known <;> cases known
    exact List.forall_mem_nil _
  · unfold health? at known
    split at known <;> cases known
    exact List.forall_mem_nil _

/-- What a shape measures is the square of a distance. -/
theorem exists_squaredDistance {s : Type} {scope : Scope s} {subject : Value} {state : s}
    {d : Float} (measured : (closestEnemySquared scope subject state).1 = some d) :
    ∃ p q, d = squaredDistance p q := by
  simp only [closestEnemySquared, bind, StateT.bind] at measured
  split at measured
  split at measured
  · cases measured
  · obtain ⟨q, -, rfl⟩ := Option.map_eq_some_iff.mp measured
    exact ⟨_, q, rfl⟩

/-- A shape of a text decides on squares of distances as on the distances. -/
theorem exact_of_specialize? (found : specialize? cs = some (form, shape)) :
    ∀ bound ∈ shape.bounds, ∀ p q : Point, bound.Exact (squaredDistance p q) := by
  obtain ⟨-, -, -, -, known⟩ := specialize?_eq_some_iff.mp found
  have unsigned := ofTextWithin_induction
    (P := fun _ shape => ∀ bound ∈ shape.bounds, Unsigned bound.limit) unsigned_of_leaf?
    (fun _ inside => inside) (fun _ left right => List.forall_mem_append.mpr ⟨left, right⟩)
    (fun _ _ left right => List.forall_mem_append.mpr ⟨left, right⟩) known
  exact fun bound mem => bound.exact_squaredDistance (unsigned bound mem)

end Shape

end Trigger
