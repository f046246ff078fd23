import Trigger.Number.Parts

/-!
# The order of numbers

The comparisons of numbers are those of their parts.
-/

namespace Trigger.Number

open Float.Model (UnpackedFloat)
open Float.Model.UnpackedFloat (Sign)

theorem parts_nan : parts nan = .notANumber := rfl

theorem parts_of_isNaN {x : Float} (none : x.isNaN = true) : parts x = .notANumber := by
  change (parts x).isNaN = true at none
  cases eq : parts x <;> rw [eq] at none <;> first | rfl | cases none

theorem parts_ne_of_number {x : Float} (number : x.isNaN = false) : parts x ≠ .notANumber := by
  intro none
  have number : (parts x).isNaN = false := number
  rw [none] at number
  cases number

theorem lt_iff (x y : Float) : x < y ↔ (parts x).compare (parts y) = some .lt := by
  show (decide ((parts x).lt (parts y) = true)) = true ↔ _
  simp [UnpackedFloat.lt]

theorem le_iff (x y : Float) : x ≤ y ↔ ((parts x).compare (parts y)).any (·.isLE) = true :=
  decide_eq_true_iff

theorem beq_eq (x y : Float) : (x == y) = ((parts x).compare (parts y) == some .eq) := rfl

theorem compare_notANumber (p : UnpackedFloat) : p.compare .notANumber = none := by
  cases p <;> rfl

theorem not_le_of_isNaN {x : Float} (none : x.isNaN = true) (y : Float) : ¬ x ≤ y := by
  rw [le_iff, parts_of_isNaN none]
  nofun

theorem not_lt_of_isNaN {x : Float} (none : x.isNaN = true) (y : Float) : ¬ x < y := by
  rw [lt_iff, parts_of_isNaN none]
  nofun

theorem not_le_isNaN (x : Float) {y : Float} (none : y.isNaN = true) : ¬ x ≤ y := by
  rw [le_iff, parts_of_isNaN none, compare_notANumber]
  nofun

theorem compare_swap (p q : UnpackedFloat) : q.compare p = (p.compare q).map .swap := by
  cases p with
  | notANumber => exact compare_notANumber q
  | infinity sign =>
      cases q with
      | infinity sign' => cases sign <;> cases sign' <;> rfl
      | _ => cases sign <;> rfl
  | zero sign =>
      cases q with
      | infinity sign' | finite sign' => cases sign' <;> rfl
      | _ => rfl
  | finite sign m e pos =>
      cases q with
      | notANumber => rfl
      | infinity sign' => cases sign' <;> rfl
      | zero sign' => cases sign <;> rfl
      | finite sign' m' e' pos' =>
          -- Of two negative numbers the larger magnitude is the lesser.
          have magnitudes : (compare e' e).then (compare m' m) =
              ((compare e e').then (compare m m')).swap := by
            rw [Ordering.swap_then, Int.compare_swap, Nat.compare_swap]
          cases sign <;> cases sign'
          case negative.negative => exact congrArg (some ·.swap) magnitudes
          case positive.positive => exact congrArg some magnitudes
          all_goals rfl

theorem finite_congr {sign : Sign} {m m' : Nat} {e e' : Int} {pos : 0 < m} {pos' : 0 < m'}
    (significands : m = m') (powers : e = e') :
    UnpackedFloat.finite sign m e pos = .finite sign m' e' pos' := by
  subst significands powers
  rfl

/-- The parts of equal numbers are the same, or zeros. -/
theorem parts_eq_or_zeros {p q : UnpackedFloat} (equal : p.compare q = some .eq) :
    p = q ∨ (∃ sign, p = .zero sign) ∧ ∃ sign, q = .zero sign := by
  cases p with
  | notANumber => cases equal
  | infinity sign =>
      cases q with
      | infinity sign' => cases sign <;> cases sign' <;> first | exact .inl rfl | cases equal
      | _ => cases sign <;> cases equal
  | zero sign =>
      cases q with
      | zero sign' => exact .inr ⟨⟨sign, rfl⟩, sign', rfl⟩
      | infinity sign' | finite sign' => cases sign' <;> cases equal
      | notANumber => cases equal
  | finite sign m e pos =>
      cases q with
      | notANumber => cases equal
      | infinity sign' => cases sign' <;> cases equal
      | zero sign' => cases sign <;> cases equal
      | finite sign' m' e' pos' =>
          have same : sign = sign' := by
            cases sign <;> cases sign' <;> first | rfl | cases equal
          subst same
          have magnitudes : (compare e e').then (compare m m') = .eq := by
            cases sign with
            | positive => exact Option.some.inj equal
            | negative => exact Ordering.swap_eq_eq.mp (Option.some.inj equal)
          obtain ⟨powers, significands⟩ := Ordering.then_eq_eq.mp magnitudes
          exact .inl
            (finite_congr (Nat.compare_eq_eq.mp significands) (Int.compare_eq_eq.mp powers))

theorem beq_comm (x y : Float) : (x == y) = (y == x) := by
  rw [beq_eq, beq_eq, compare_swap (parts x)]
  cases (parts x).compare (parts y) with
  | none => rfl
  | some order => cases order <;> rfl

theorem beq_trans {x y z : Float} (equal : (x == y) = true) (equal' : (y == z) = true) :
    (x == z) = true := by
  rw [beq_eq, beq_iff_eq] at *
  rcases parts_eq_or_zeros equal with same | ⟨⟨sign, zero⟩, -⟩
  · rwa [same]
  · rcases parts_eq_or_zeros equal' with same | ⟨-, sign', zero'⟩
    · rwa [← same]
    · rw [zero, zero']
      rfl

/-- Numbers compare. -/
theorem exists_compare {p q : UnpackedFloat} (number : p ≠ .notANumber)
    (number' : q ≠ .notANumber) :
    ∃ order, p.compare q = some order := by
  cases p with
  | notANumber => exact absurd rfl number
  | infinity sign =>
      cases q with
      | notANumber => exact absurd rfl number'
      | _ => cases sign <;> exact ⟨_, rfl⟩
  | zero sign | finite sign =>
      cases q with
      | notANumber => exact absurd rfl number'
      | infinity sign' | zero sign' | finite sign' => cases sign <;> cases sign' <;> exact ⟨_, rfl⟩

/-- The order of two numbers is that of their parts. -/
theorem order?_eq (x y : Float) : order? x y = (parts x).compare (parts y) := by
  have greater : y < x ↔ (parts x).compare (parts y) = some .gt := by
    rw [lt_iff, compare_swap (parts x)]
    cases (parts x).compare (parts y) with
    | none => simp
    | some order => cases order <;> simp
  unfold order?
  rw [beq_eq]
  cases eq : (parts x).compare (parts y) with
  | none => rw [if_neg (by rw [lt_iff, eq]; nofun), if_neg (by rw [greater, eq]; nofun)]; rfl
  | some order =>
      cases order with
      | lt => exact if_pos ((lt_iff x y).mpr eq)
      | gt => rw [if_neg (by rw [lt_iff, eq]; decide), if_pos (greater.mpr eq)]
      | eq => rw [if_neg (by rw [lt_iff, eq]; decide), if_neg (by rw [greater, eq]; decide)]; rfl

theorem order?_swap (x y : Float) : order? y x = (order? x y).map .swap := by
  rw [order?_eq, order?_eq, compare_swap]

theorem order?_eq_some_eq_iff {x y : Float} : order? x y = some .eq ↔ (x == y) = true := by
  rw [order?_eq, beq_eq, beq_iff_eq]

/-- Two numbers compare unless one of them is no number. -/
theorem order?_eq_none_iff {x y : Float} :
    order? x y = none ↔ x.isNaN = true ∨ y.isNaN = true := by
  rw [order?_eq]
  cases first : x.isNaN with
  | true =>
      rw [parts_of_isNaN first]
      exact iff_of_true rfl (.inl rfl)
  | false =>
      cases second : y.isNaN with
      | true =>
          rw [parts_of_isNaN second, compare_notANumber]
          exact iff_of_true rfl (.inr rfl)
      | false =>
          obtain ⟨order, eq⟩ :=
            exists_compare (parts_ne_of_number first) (parts_ne_of_number second)
          rw [eq]
          exact iff_of_false nofun (by nofun)

/-- Nothing compares with no number. -/
theorem order?_nan (y : Float) : order? nan y = none := by
  rw [order?_eq, parts_nan]
  rfl

end Trigger.Number
