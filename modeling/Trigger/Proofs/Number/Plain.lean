import Trigger.Number.Notation
import Trigger.Proofs.Number.Stored
import Trigger.Proofs.Token.Spelling

/-!
# Plain numbers

A number that a text writes has no sign.  In the plain style it is written with digits, and possibly
a point with more digits, as number literals are spelled (`exists_digits_write`).  The digits stand
for the shortest decimal of the number, wherever the point is (`exists_write`).
-/

namespace Trigger.Number

open Float.Model (UnpackedFloat)
open Float.Model.UnpackedFloat (Sign)
open Lexeme (digitsSource)

/-! ## Numbers without a sign -/

theorem unsigned_rounded (significand : Nat) (power : Int) :
    Unsigned (rounded .positive significand power) := by
  unfold rounded
  split
  · exact unsigned_ofParts rfl
  · refine unsigned_ofParts ?_
    simp only [UnpackedFloat.round, UnpackedFloat.roundWithAccuracy]
    split <;> rfl

/-- A number that digits write has no sign. -/
theorem unsigned_ofFixed (whole fraction : List Char) (power : Int) :
    Unsigned (ofFixed whole fraction power) := by
  unfold ofFixed decimal
  split
  · exact unsigned_ofParts rfl
  · split
    · exact unsigned_ofParts rfl
    · split
      · exact unsigned_ofParts rfl
      · split
        · exact unsigned_rounded _ _
        · exact unsigned_rounded _ _

/-! ## Reading digits -/

/-- The digits of a number literal, those in front of its point and those behind it. -/
structure IsLiteral (whole fraction : List Char) : Prop where
  nonempty : whole ≠ []
  digits : whole.all Char.isDigit = true
  digits' : fraction.all Char.isDigit = true

theorem readSign_of_isDigit {c : Char} (digit : c.isDigit = true) (cs : List Char) :
    readSign (c :: cs) = (.positive, c :: cs) := by
  unfold readSign
  split
  · rename_i eq
    cases eq
    cases digit
  · rename_i eq
    cases eq
    cases digit
  · rfl

/-- Digits with digits behind a point read as the number that they write. -/
theorem ofText?_digitsSource {whole fraction : List Char} (literal : IsLiteral whole fraction) :
    ofText? (digitsSource whole fraction) = some (ofFixed whole fraction 0) := by
  obtain ⟨nonempty, digits, digits'⟩ := literal
  cases whole with
  | nil => contradiction
  | cons d whole =>
      have digit : d.isDigit = true := (Bool.and_eq_true_iff.mp digits).1
      cases fraction with
      | nil =>
          have span : spanDigits (d :: whole) = (d :: whole, []) := by
            simpa using @spanDigits_append_of_stop (d :: whole) [] digits nofun
          simp [ofText?, digitsSource, readSign_of_isDigit digit, span, readFraction, readPower?,
            signed]
      | cons e fraction =>
          have span : spanDigits (d :: whole ++ '.' :: e :: fraction) =
              (d :: whole, '.' :: e :: fraction) :=
            spanDigits_append_of_stop digits (by rintro _ ⟨⟩; rfl)
          have span' : spanDigits (e :: fraction) = (e :: fraction, []) := by
            simpa using @spanDigits_append_of_stop (e :: fraction) [] digits' nofun
          simp only [List.cons_append] at span
          simp [ofText?, digitsSource, readSign_of_isDigit digit, span, readFraction, span',
            readPower?, signed]

/-! ## The number that digits write -/

theorem foldl_digits (start : Nat) (digits : List Char) :
    digits.foldl (fun n c => 10 * n + digitValue c) start =
      start * 10 ^ digits.length + ofDigits digits := by
  induction digits generalizing start with
  | nil => simp [ofDigits]
  | cons c digits ih =>
      rw [ofDigits, List.foldl_cons, List.foldl_cons, ih, ih, List.length_cons, pow_succ]
      ring

theorem ofDigits_append (digits more : List Char) :
    ofDigits (digits ++ more) = ofDigits digits * 10 ^ more.length + ofDigits more := by
  rw [ofDigits, List.foldl_append, foldl_digits]
  rfl

theorem ofDigits_cons_zero (digits : List Char) : ofDigits ('0' :: digits) = ofDigits digits := rfl

theorem ofDigits_replicate_zero (k : Nat) : ofDigits (List.replicate k '0') = 0 := by
  induction k with
  | zero => rfl
  | succ k ih => rw [List.replicate_succ, ofDigits_cons_zero, ih]

theorem ofDigits_digitsOf (n : Nat) : ofDigits (digitsOf n) = n :=
  Nat.ofDigitChars_toDigits (by omega) (by omega)

/-- What is dropped from the end of digits are zeros. -/
theorem append_stripZeros (digits : List Char) :
    (stripZeros digits).1 ++ List.replicate (stripZeros digits).2 '0' = digits := by
  have split : (stripZeros digits).1 ++ (digits.reverse.takeWhile (· = '0')).reverse = digits := by
    rw [stripZeros, ← List.reverse_append, List.takeWhile_append_dropWhile, List.reverse_reverse]
  have zeros : (digits.reverse.takeWhile (· = '0')).reverse =
      List.replicate (stripZeros digits).2 '0' := by
    refine List.eq_replicate_iff.mpr ⟨?_, fun c mem => ?_⟩
    · have lengths := congrArg List.length split
      rw [List.length_append] at lengths
      exact Nat.eq_sub_of_add_eq' lengths
    · have zero := List.mem_takeWhile_imp (List.mem_reverse.mp mem)
      exact of_decide_eq_true zero
  rw [← zeros, split]

/-! ## Writing digits -/

/-- The text is spelled like a number literal. -/
def IsDigits (cs : List Char) : Prop :=
  ∃ whole fraction, whole ≠ [] ∧ whole.all Char.isDigit = true ∧
    fraction.all Char.isDigit = true ∧ cs = digitsSource whole fraction

theorem all_isDigit_digitsOf (n : Nat) : (digitsOf n).all Char.isDigit = true :=
  List.all_eq_true.mpr fun _ mem => Nat.isDigit_of_mem_toDigits (by omega) (by omega) mem

theorem all_isDigit_stripZeros {digits : List Char} (all : digits.all Char.isDigit = true) :
    (stripZeros digits).1.all Char.isDigit = true := by
  refine List.all_eq_true.mpr fun c mem => List.all_eq_true.mp all c ?_
  rw [stripZeros, List.mem_reverse] at mem
  exact List.mem_reverse.mp ((List.dropWhile_sublist _).subset mem)

/-- Digits around a point are spelled like a literal, except for a point with nothing behind it.
The literal is the digits with the power of ten that the place of the point leaves to them. -/
theorem exists_aroundPoint {digits : List Char} (all : digits.all Char.isDigit = true)
    (places : Int) (shown : digits ≠ [] ∨ places ≠ 0) :
    ∃ whole fraction, IsLiteral whole fraction ∧
      aroundPoint .plain digits places = digitsSource whole fraction ∧
      (ofDigits (whole ++ fraction) : ℝ) * 10 ^ (0 - fraction.length : ℤ) =
        ofDigits digits * 10 ^ (places - digits.length) := by
  unfold aroundPoint
  split
  · rename_i left
    refine ⟨['0'], List.replicate (-places).toNat '0' ++ digits, ⟨by simp, rfl, by simp [all]⟩,
      ?_, ?_⟩
    · rw [digitsSource_of_ne_nil]
      · simp
      · rw [Ne, List.append_eq_nil_iff, List.replicate_eq_nil_iff]
        rintro ⟨zero, rfl⟩
        exact shown.elim (absurd rfl) (fun nonzero => nonzero (by omega))
    · rw [List.cons_append, List.nil_append, ofDigits_cons_zero, ofDigits_append,
        ofDigits_replicate_zero, Nat.zero_mul, Nat.zero_add]
      congr 2
      rw [List.length_append, List.length_replicate]
      omega
  · rename_i right
    split
    · rename_i short
      refine ⟨digits ++ List.replicate (places.toNat - digits.length) '0', [],
        ⟨?_, by simp [all], rfl⟩, by simp [Style.plain, digitsSource], ?_⟩
      · intro none
        have same := congrArg List.length none
        simp only [List.length_append, List.length_replicate, List.length_nil] at same
        omega
      · rw [List.append_nil, ofDigits_append, ofDigits_replicate_zero, Nat.add_zero,
          List.length_replicate, List.length_nil, Nat.cast_mul, Nat.cast_pow, Nat.cast_ofNat,
          ← zpow_natCast, Nat.cast_zero, sub_self, zpow_zero, mul_one]
        congr 2
        omega
    · rename_i longer
      have taken : (digits.take places.toNat).all Char.isDigit = true :=
        List.all_eq_true.mpr fun c mem => List.all_eq_true.mp all c (List.mem_of_mem_take mem)
      have dropped : (digits.drop places.toNat).all Char.isDigit = true :=
        List.all_eq_true.mpr fun c mem => List.all_eq_true.mp all c (List.mem_of_mem_drop mem)
      refine ⟨_, _, ⟨?_, taken, dropped⟩, ?_, ?_⟩
      · intro none
        have same := congrArg List.length none
        simp only [List.length_take, List.length_nil] at same
        omega
      · have nonempty : digits.drop places.toNat ≠ [] := by
          rw [Ne, List.drop_eq_nil_iff]
          omega
        rw [digitsSource_of_ne_nil _ nonempty]
        simp
      · rw [List.take_append_drop, List.length_drop]
        congr 2
        omega

theorem isDigits_aroundPoint {digits : List Char} (all : digits.all Char.isDigit = true)
    (places : Int) :
    IsDigits (aroundPoint .plain digits places) ∨
      aroundPoint .plain digits places = ['0', '.'] := by
  by_cases hidden : digits = [] ∧ places = 0
  · obtain ⟨rfl, rfl⟩ := hidden
    exact .inr rfl
  · obtain ⟨whole, fraction, ⟨nonempty, digit, digit'⟩, eq, -⟩ :=
      exists_aroundPoint all places (not_and_or.mp hidden)
    exact .inl ⟨whole, fraction, nonempty, digit, digit', eq⟩

/-- A decimal that is not zero is written like a literal of the same value. -/
theorem exists_write {d : Decimal} (pos : 0 < d.digits) :
    ∃ whole fraction, IsLiteral whole fraction ∧ d.write .plain = digitsSource whole fraction ∧
      (ofDigits (whole ++ fraction) : ℝ) * 10 ^ (0 - fraction.length : ℤ) =
        d.digits * 10 ^ d.power := by
  have all := all_isDigit_stripZeros (all_isDigit_digitsOf d.digits)
  have kept : d.digits =
      ofDigits (stripZeros (digitsOf d.digits)).1 * 10 ^ (stripZeros (digitsOf d.digits)).2 := by
    have value := ofDigits_append (stripZeros (digitsOf d.digits)).1
      (List.replicate (stripZeros (digitsOf d.digits)).2 '0')
    rwa [append_stripZeros, ofDigits_digitsOf, ofDigits_replicate_zero, Nat.add_zero,
      List.length_replicate] at value
  have shown : (stripZeros (digitsOf d.digits)).1 ≠ [] := by
    intro none
    rw [none, show ofDigits [] = 0 from rfl, Nat.zero_mul] at kept
    omega
  obtain ⟨whole, fraction, literal, eq, value⟩ :=
    exists_aroundPoint all (d.power + (stripZeros (digitsOf d.digits)).2 +
      (stripZeros (digitsOf d.digits)).1.length) (.inl shown)
  refine ⟨whole, fraction, literal, eq, value.trans ?_⟩
  have kept : (d.digits : ℝ) = ofDigits (stripZeros (digitsOf d.digits)).1 *
      10 ^ (stripZeros (digitsOf d.digits)).2 := by exact_mod_cast kept
  rw [add_sub_cancel_right, kept, zpow_add₀ (by norm_num), zpow_natCast]
  ring

/-- A finite number without a sign is spelled like a literal, unless it is not zero and all its
digits are dropped. -/
theorem isDigits_write {x : Float} (unsigned : Unsigned x) (finite : x.isFinite = true) :
    IsDigits (write .plain x) ∨ write .plain x = ['0', '.'] ∧ parts x ≠ .zero .positive := by
  change (parts x).isFinite = true at finite
  unfold Unsigned at unsigned
  unfold write
  cases known : parts x with
  | notANumber | infinity sign =>
      rw [known] at finite
      cases finite
  | zero sign =>
      rw [known] at unsigned
      obtain rfl : sign = .positive := unsigned
      exact .inl ⟨['0'], [], by simp, rfl, rfl, rfl⟩
  | finite sign m e pos =>
      rw [known] at unsigned
      obtain rfl : sign = .positive := unsigned
      have digits := all_isDigit_stripZeros (all_isDigit_digitsOf (shortest m e).digits)
      exact (isDigits_aroundPoint digits _).imp_right fun bare => ⟨bare, nofun⟩

/-- A finite number without a sign that reads back from its plain text is spelled by it like a
literal. -/
theorem exists_digits_write {x : Float} (unsigned : Unsigned x) (finite : x.isFinite = true)
    (rereads : ofText? (write .plain x) = some x) :
    ∃ whole fraction, IsLiteral whole fraction ∧ write .plain x = digitsSource whole fraction ∧
      ofFixed whole fraction 0 = x := by
  obtain ⟨whole, fraction, nonempty, digits, digits', eq⟩ | ⟨eq, nonzero⟩ :=
    isDigits_write unsigned finite
  · have literal : IsLiteral whole fraction := ⟨nonempty, digits, digits'⟩
    rw [eq, ofText?_digitsSource literal] at rereads
    exact ⟨whole, fraction, literal, eq, Option.some.inj rereads⟩
  · have read : ofText? ['0', '.'] = some (zero .positive) := rfl
    rw [eq, read] at rereads
    obtain rfl := Option.some.inj rereads
    exact absurd rfl nonzero

end Trigger.Number
