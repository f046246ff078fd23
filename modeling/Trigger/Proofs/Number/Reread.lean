import Trigger.Proofs.Number.Plain
import Trigger.Proofs.Number.Shortest

/-!
# Numbers read back

The text of a finite number in the plain style reads as the same number (`ofText?_write`).  The
digits are those of its shortest decimal, which is around the number, and what is around a number is
read as this number.
-/

namespace Trigger.Number

open Float.Model (UnpackedFloat)
open Float.Model.UnpackedFloat (Sign)
open Lexeme (digitsSource)

/-! ## Signs in front -/

theorem exists_cons_digitsSource {whole fraction : List Char} (literal : IsLiteral whole fraction) :
    ∃ c cs, c.isDigit = true ∧ digitsSource whole fraction = c :: cs := by
  obtain ⟨nonempty, digits, -⟩ := literal
  cases whole with
  | nil => contradiction
  | cons c whole =>
      have digit : c.isDigit = true := (Bool.and_eq_true_iff.mp digits).1
      cases fraction with
      | nil => exact ⟨c, whole, digit, rfl⟩
      | cons d fraction => exact ⟨c, whole ++ '.' :: d :: fraction, digit, rfl⟩

theorem readSign_signText (sign : Sign) {c : Char} (digit : c.isDigit = true) (cs : List Char) :
    readSign (signText sign ++ c :: cs) = (sign, c :: cs) := by
  cases sign with
  | positive => exact readSign_of_isDigit digit cs
  | negative => rfl

theorem ofText?_cons_minus {cs : List Char} (unsigned : readSign cs = (.positive, cs)) :
    ofText? ('-' :: cs) = (ofText? cs).map (signed .negative) := by
  have sign : readSign ('-' :: cs) = (.negative, cs) := rfl
  simp only [ofText?, sign, unsigned]
  split
  · rfl
  · rw [Option.map_map]
    rfl

/-- A sign in front of digits is the sign of the number. -/
theorem ofText?_signText (sign : Sign) {whole fraction : List Char}
    (literal : IsLiteral whole fraction) :
    ofText? (signText sign ++ digitsSource whole fraction) =
      some (signed sign (ofFixed whole fraction 0)) := by
  have source := ofText?_digitsSource literal
  cases sign with
  | positive => exact source
  | negative =>
      obtain ⟨c, cs, digit, eq⟩ := exists_cons_digitsSource literal
      rw [eq] at source ⊢
      exact (ofText?_cons_minus (readSign_of_isDigit digit cs)).trans
        (congrArg (Option.map _) source)

/-! ## Reading what is written -/

/-- A finite number is written with its sign and the digits of a literal that stands for it. -/
theorem exists_signed_write {x : Float} (finite : Finite x) :
    ∃ sign whole fraction, IsLiteral whole fraction ∧
      write .plain x = signText sign ++ digitsSource whole fraction ∧
      signed sign (ofFixed whole fraction 0) = x := by
  have fits := ((finite_or_special x).resolve_right fun special => special.not_canonical finite).2
  have stored := ofParts_parts x
  unfold Finite at finite
  unfold write
  cases eq : parts x with
  | infinity | notANumber => rw [eq] at finite; cases finite
  | zero sign =>
      rw [eq] at stored
      refine ⟨sign, ['0'], [], ⟨by simp, rfl, rfl⟩, List.append_nil _, ?_⟩
      cases sign <;> exact stored
  | finite sign m e pos =>
      rw [eq] at stored finite fits
      have scaled : IsScaled m e := finite
      have around := around_shortest pos scaled
      have digits_pos : 0 < (shortest m e).digits := by
        refine Nat.pos_of_ne_zero fun none => ?_
        have least := around.pos pos
        rw [none, Nat.cast_zero, zero_mul] at least
        have := two_zpow_pos e
        linarith
      obtain ⟨whole, fraction, literal, text, value⟩ := exists_write digits_pos
      rw [← value] at around
      have read : ofFixed whole fraction 0 = ofParts (.finite .positive m e pos) :=
        decimal_of_around pos scaled fits around
      have unsigned : parts (ofParts (.finite .positive m e pos)) = .finite .positive m e pos :=
        parts_ofParts_of_fits scaled fits
      refine ⟨sign, whole, fraction, literal, congrArg _ text, ?_⟩
      rw [read]
      cases sign with
      | positive => exact stored
      | negative => exact (neg_ofParts unsigned).trans stored

theorem finite_of_isFinite {x : Float} (finite : x.isFinite = true) : Finite x := by
  change (parts x).isFinite = true at finite
  rcases finite_or_special x with ⟨canonical, -⟩ | none | ⟨sign, infinite⟩
  · exact canonical
  · rw [none] at finite
    cases finite
  · rw [infinite] at finite
    cases finite

/-- A finite number reads back from its text. -/
theorem ofText?_write {x : Float} (finite : Finite x) : ofText? (write .plain x) = some x := by
  obtain ⟨sign, whole, fraction, literal, text, value⟩ := exists_signed_write finite
  rw [text, ofText?_signText sign literal, value]

end Trigger.Number
