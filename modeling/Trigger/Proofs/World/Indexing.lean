import Trigger.Proofs.Number.Nearest
import Trigger.Proofs.Number.Reread
import Trigger.Proofs.Number.Shortest
import Trigger.World.Call
import Trigger.World.Scripted

/-!
# Indices that are numbers

An array and a string take a number for the position that it is: the number that stands for the
whole number `k`, whichever zero it may be, gives the part at `k`, and every number that is the
position of no part gives nothing (`index_of_elements`).

An object is asked by the text of the number instead.  Equal numbers have one text, but for the two
zeros, which are written with their signs.  So equal numbers index alike exactly if they are the
same number or the value has the same member under the texts of both zeros (`index_number`).  An
array and a string have none under either; an object may have one of the two alone.
-/

namespace Trigger

namespace Number

open Float.Model (UnpackedFloat)
open Float.Model.UnpackedFloat

/-! ## Equal numbers -/

/-- Equal numbers are the same, or zeros. -/
theorem eq_or_zeros {m n : Float} (equal : (m == n) = true) :
    m = n ∨ (∃ sign, m = zero sign) ∧ ∃ sign, n = zero sign := by
  rw [beq_eq, beq_iff_eq] at equal
  rcases parts_eq_or_zeros equal with same | ⟨⟨sign, first⟩, sign', second⟩
  · left
    rw [← ofParts_parts m, same, ofParts_parts]
  · refine .inr ⟨⟨sign, ?_⟩, sign', ?_⟩
    · rw [← ofParts_parts m, first, zero]
    · rw [← ofParts_parts n, second, zero]

theorem parts_zero (sign : Sign) : parts (zero sign) = .zero sign :=
  parts_ofParts_of_fits (p := .zero sign) trivial trivial

theorem zero_injective : Function.Injective zero := by
  intro sign sign' equal
  have equal := congrArg parts equal
  rw [parts_zero, parts_zero] at equal
  exact UnpackedFloat.zero.inj equal

/-! ## Whole numbers -/

/-- The number stands for the natural number `k`. -/
def IsWhole (x : Float) (k : Nat) : Prop := Finite x ∧ real x = k

theorem scaled_eq_natCast_iff {m k : Nat} {e : Int} :
    (m : ℝ) * 2 ^ e = k ↔ m * 2 ^ e.toNat = k * 2 ^ (-e).toNat := by
  have unit : (2 : ℝ) ^ (-e).toNat ≠ 0 := by positivity
  rw [← Nat.cast_inj (R := ℝ)]
  push_cast
  rw [pow_toNat two_ne_zero e, ← mul_assoc, mul_left_inj' unit]

theorem wholePart_eq_some_iff {m k : Nat} {e : Int} :
    (if 0 ≤ e then some (m * Nat.pow 2 e.toNat)
      else if m % Nat.pow 2 (-e).toNat = 0 then some (m / Nat.pow 2 (-e).toNat)
      else none) = some k ↔
      m * 2 ^ e.toNat = k * 2 ^ (-e).toNat := by
  rw [Nat.pow_eq, Nat.pow_eq]
  by_cases large : 0 ≤ e
  · rw [if_pos large, Option.some.injEq, show (-e).toNat = 0 by omega, pow_zero, mul_one]
  · rw [if_neg large, show e.toNat = 0 by omega, pow_zero, mul_one]
    have unit : 0 < 2 ^ (-e).toNat := Nat.two_pow_pos _
    split
    · rename_i whole
      rw [Option.some.injEq, Nat.div_eq_iff_eq_mul_left unit (Nat.dvd_of_mod_eq_zero whole)]
    · rename_i fraction
      refine iff_of_false nofun fun same => fraction ?_
      rw [same, Nat.mul_mod_left]

theorem whole?_eq_some_iff {x : Float} {k : Nat} : whole? x = some k ↔ IsWhole x k := by
  obtain ⟨finite, -⟩ | special := finite_or_special x
  · rw [IsWhole, and_iff_right finite]
    unfold Finite at finite
    unfold whole? real
    cases eq : parts x with
    | infinity | notANumber => rw [eq] at finite; cases finite
    | zero sign => simp [valueOf, eq_comm]
    | finite sign m e pos =>
        cases sign with
        | negative =>
            rw [valueOf_negative]
            have below := scaled_pos pos e
            have nonneg : (0 : ℝ) ≤ k := k.cast_nonneg
            exact iff_of_false (Option.some_ne_none k).symm (by linarith)
        | positive =>
            rw [valueOf_positive, scaled_eq_natCast_iff]
            exact wholePart_eq_some_iff
  · have none : whole? x = none := by
      unfold whole?
      rcases special with none | ⟨sign, infinite⟩
      · rw [none]
      · rw [infinite]
    rw [none]
    exact iff_of_false (Option.some_ne_none k).symm fun whole => special.not_canonical whole.1

end Number

/-! ## Positions -/

namespace Value

/-- The parts of an array or a string, by their positions. -/
def elements? : Value → Option (List Value)
  | .array items => some items
  | .string contents => some (contents.toList.map fun c => .string c.toString)
  | _ => none

end Value

namespace World

open Number (IsWhole zero)

variable {s : Type}

/-- A number takes the part of an array or a string at its position. -/
theorem index_of_elements (w : World s) {v : Value} {elements : List Value}
    (sequence : v.elements? = some elements) (n : Float) :
    w.index v (.number n) = pure (((Number.whole? n).bind (elements[·]?)).getD .absent) := by
  have taken : w.indexSequence v (elements[·]?) (.number n) =
      pure (((Number.whole? n).bind (elements[·]?)).getD .absent) := by
    unfold indexSequence
    simp only [place?]
    cases Number.whole? n <;> rfl
  cases v with
  | array items =>
      obtain rfl : items = elements := Option.some.inj sequence
      exact taken
  | string contents =>
      obtain rfl : contents.toList.map (fun c => Value.string c.toString) = elements :=
        Option.some.inj sequence
      rw [← taken, index]
      simp only [List.getElem?_map]
  | _ => cases sequence

/-! ## Names -/

/-- The text of a zero. -/
def zeroName : Float.Model.UnpackedFloat.Sign → String
  | .positive => "0"
  | .negative => "-0"

/-- An object of any kind is asked for the text of the number, and every other value that has no
parts by position has nothing under a number. -/
theorem index_zero (w : World s) {v : Value} (other : v.elements? = none) (sign) :
    w.index v (.number (zero sign)) = w.memberOf v (zeroName sign) := by
  cases v with
  | array | string => cases other
  | object | host => cases sign <;> rfl
  | _ => rfl

theorem memberOf_zeroName (w : World s) {v : Value} {elements : List Value}
    (sequence : v.elements? = some elements) (sign) :
    w.memberOf v (zeroName sign) = pure .absent := by
  cases v with
  | array | string => cases sign <;> rfl
  | _ => cases sequence

theorem index_zeros (w : World s) (v : Value) (st : s) (sign sign') :
    w.index v (.number (zero sign)) st = w.index v (.number (zero sign')) st ↔
      w.memberOf v (zeroName sign) st = w.memberOf v (zeroName sign') st := by
  cases sequence : v.elements? with
  | none => rw [index_zero w sequence, index_zero w sequence]
  | some elements =>
      rw [memberOf_zeroName w sequence, memberOf_zeroName w sequence, index_of_elements w sequence,
        index_of_elements w sequence]
      cases sign <;> cases sign' <;> exact iff_of_true rfl rfl

/-- Equal numbers index alike exactly if they are the same number or the value has the same member
under the texts of both zeros; and a number takes from an array or a string the part at the position
that it stands for, and nothing if it stands for the position of no part. -/
theorem index_number (w : World s) (v : Value) (st : s) :
    (∀ m n : Float, (m == n) = true →
      (w.index v (.number m) st = w.index v (.number n) st ↔
        m = n ∨ w.memberOf v "0" st = w.memberOf v "-0" st)) ∧
    ∀ elements, v.elements? = some elements → ∀ n : Float,
      (∀ k (inside : k < elements.length), IsWhole n k →
        w.index v (.number n) st = (elements[k], st)) ∧
      ((∀ k < elements.length, ¬ IsWhole n k) → w.index v (.number n) st = (.absent, st)) := by
  refine ⟨fun m n equal => ?_,
    fun elements sequence n => ⟨fun k inside whole => ?_, fun beyond => ?_⟩⟩
  · rcases Number.eq_or_zeros equal with rfl | ⟨⟨sign, rfl⟩, sign', rfl⟩
    · exact iff_of_true rfl (.inl rfl)
    · rw [index_zeros]
      by_cases same : sign = sign'
      · rw [same]
        exact iff_of_true rfl (.inl rfl)
      · rw [or_iff_right fun equal => same (Number.zero_injective equal)]
        cases sign <;> cases sign'
        case negative.positive => exact eq_comm
        case positive.negative => exact Iff.rfl
        all_goals exact absurd rfl same
  · rw [index_of_elements w sequence, Number.whole?_eq_some_iff.mpr whole, Option.bind_some,
      List.getElem?_eq_getElem inside]
    rfl
  · rw [index_of_elements w sequence]
    cases place : Number.whole? n with
    | none => rfl
    | some k =>
        have outside := (beyond k).mt (not_not.mpr (Number.whole?_eq_some_iff.mp place))
        rw [Option.bind_some, List.getElem?_eq_none (Nat.le_of_not_lt outside)]
        rfl

/-- Both zeros take the first item of an array, and no number takes nothing. -/
theorem index_number_array :
    ((Number.zero .positive == Number.zero .negative) = true ∧ IsWhole (zero .negative) 0 ∧
      ∀ k, ¬ IsWhole Number.nan k) ∧
    ∃ v : Value, v.elements? = some [.boolean true, .null] ∧
      Script.empty.world.index v (.number (zero .positive)) Record.empty =
        Script.empty.world.index v (.number (zero .negative)) Record.empty ∧
      Script.empty.world.index v (.number (zero .negative)) Record.empty =
        (.boolean true, Record.empty) ∧
      Script.empty.world.index v (.number Number.nan) Record.empty = (.absent, Record.empty) := by
  have zeros : (Number.zero .positive == Number.zero .negative) = true := rfl
  have whole : IsWhole (zero .negative) 0 := Number.whole?_eq_some_iff.mp rfl
  have none : ∀ k, ¬ IsWhole Number.nan k := fun k whole => whole.1
  obtain ⟨alike, positions⟩ := index_number Script.empty.world
    (.array [.boolean true, .null]) Record.empty
  have position := positions _ rfl (zero .negative)
  exact ⟨⟨zeros, whole, none⟩, .array [.boolean true, .null], rfl, (alike _ _ zeros).mpr (.inr rfl),
    position.1 0 (by decide) whole, (positions _ rfl Number.nan).2 fun k _ => none k⟩

/-- An object with the key `0` has something under the one zero and nothing under the other. -/
theorem index_zeros_differ :
    (Number.zero .positive == Number.zero .negative) = true ∧
    Script.empty.world.index (.object [("0", .boolean true)]) (.number (zero .positive))
      Record.empty = (.boolean true, Record.empty) ∧
    Script.empty.world.index (.object [("0", .boolean true)]) (.number (zero .negative))
      Record.empty = (.absent, Record.empty) :=
  ⟨rfl, rfl, rfl⟩

end World

end Trigger
