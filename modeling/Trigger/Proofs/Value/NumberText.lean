import Trigger.Proofs.Number.Reread
import Trigger.Value.Coercion
import Trigger.Value.Equality
import Trigger.Value.Text

/-!
# The text of a number has the number

The string that shows a number has this number, whatever blanks are put around it (`toNumber_text`).
The words for the infinities are those that the reading of strings knows, and the word for no number
is none that it knows.
-/

namespace Trigger.Value

open Float.Model.UnpackedFloat (Sign)
open Number (ofText? readSign signText signed)
open Lexeme (digitsSource)
open Text (isBlank)

/-! ## Blanks around a text -/

/-- A text without blanks. -/
def IsSolid (cs : List Char) : Prop := cs.all (!isBlank ·) = true

theorem IsSolid.dropWhile {cs : List Char} (solid : IsSolid cs) : cs.dropWhile isBlank = cs := by
  cases cs with
  | nil => rfl
  | cons c cs =>
      have solid : isBlank c = false := by simpa using (Bool.and_eq_true_iff.mp solid).1
      exact List.dropWhile_cons_of_neg (by simp [solid])

theorem trim_padded {before behind cs : List Char} (blank : before.all isBlank = true)
    (blank' : behind.all isBlank = true) (nonempty : cs ≠ []) (solid : IsSolid cs) :
    Text.trim (before ++ cs ++ behind) = cs := by
  have front : Text.trimStart (before ++ cs ++ behind) = cs ++ behind := by
    rw [Text.trimStart, List.append_assoc, List.dropWhile_append_of_pos (List.all_eq_true.mp blank),
      List.dropWhile_append, solid.dropWhile, if_neg (by simpa using nonempty)]
  have reversed : IsSolid cs.reverse := by
    rw [IsSolid, List.all_reverse]
    exact solid
  rw [← List.all_reverse] at blank'
  rw [Text.trim, front, Text.trimEnd, List.reverse_append,
    List.dropWhile_append_of_pos (List.all_eq_true.mp blank'), reversed.dropWhile,
    List.reverse_reverse]

theorem isBlank_of_isDigit {c : Char} (digit : c.isDigit = true) : isBlank c = false := by
  cases blank : isBlank c with
  | false => rfl
  | true =>
      rw [(of_isBlank blank).2.2.1] at digit
      cases digit

theorem isSolid_of_digits {digits : List Char} (all : digits.all Char.isDigit = true) :
    IsSolid digits :=
  List.all_eq_true.mpr fun c mem => by
    rw [isBlank_of_isDigit (List.all_eq_true.mp all c mem)]
    rfl

theorem isSolid_append {cs more : List Char} (solid : IsSolid cs) (solid' : IsSolid more) :
    IsSolid (cs ++ more) := by
  rw [IsSolid, List.all_append, solid, solid']
  rfl

theorem isSolid_signText (sign : Sign) : IsSolid (signText sign) := by
  cases sign <;> rfl

theorem isSolid_digitsSource {whole fraction : List Char}
    (literal : Number.IsLiteral whole fraction) : IsSolid (digitsSource whole fraction) := by
  obtain ⟨-, digits, digits'⟩ := literal
  cases fraction with
  | nil => exact isSolid_of_digits digits
  | cons c fraction =>
      have point : IsSolid ['.'] := rfl
      exact isSolid_append (isSolid_of_digits digits)
        (isSolid_append point (isSolid_of_digits digits'))

/-! ## The number of a text -/

/-- The number that a sign and what stands behind it have as a string. -/
def numberOfSigned (sign : Sign) (unsigned : List Char) : Float :=
  if unsigned = infinityWord then signed sign Number.infinity
  else (ofText? (signText sign ++ unsigned)).getD Number.nan

theorem numberOfText_padded {before behind : List Char} (blank : before.all isBlank = true)
    (blank' : behind.all isBlank = true) {sign : Sign} {unsigned : List Char}
    (nonempty : unsigned ≠ []) (solid : IsSolid unsigned)
    (read : readSign (signText sign ++ unsigned) = (sign, unsigned)) :
    numberOfText (before ++ (signText sign ++ unsigned) ++ behind) =
      numberOfSigned sign unsigned := by
  have shown : signText sign ++ unsigned ≠ [] := List.append_ne_nil_of_right_ne_nil _ nonempty
  have trimmed := trim_padded blank blank' shown (isSolid_append (isSolid_signText sign) solid)
  simp only [numberOfText, numberOfSigned, trimmed, read, List.isEmpty_iff, shown, if_false]

/-- The text of a number is a sign, and what reads as the number behind it. -/
theorem exists_numberText (x : Float) :
    ∃ sign unsigned, numberText x = signText sign ++ unsigned ∧ unsigned ≠ [] ∧
      IsSolid unsigned ∧ readSign (signText sign ++ unsigned) = (sign, unsigned) ∧
      numberOfSigned sign unsigned = x := by
  have stored := Number.ofParts_parts x
  rcases Number.finite_or_special x with ⟨finite, -⟩ | none | ⟨sign, infinite⟩
  · have text : numberText x = Number.write .plain x := by
      unfold numberText
      split
      · rename_i sign eq
        rw [Number.Finite, eq] at finite
        cases finite
      · rfl
    obtain ⟨sign, whole, fraction, literal, written, value⟩ := Number.exists_signed_write finite
    have solid := isSolid_digitsSource literal
    have read := Number.ofText?_signText sign literal
    obtain ⟨c, cs, digit, source⟩ := Number.exists_cons_digitsSource literal
    rw [source] at written solid read
    have unworded : c :: cs ≠ infinityWord := by
      rintro ⟨rfl, rfl⟩
      cases digit
    refine ⟨sign, c :: cs, text.trans written, List.cons_ne_nil c cs, solid,
      Number.readSign_signText sign digit cs, ?_⟩
    rw [numberOfSigned, if_neg unworded, read]
    exact value
  · rw [none] at stored
    refine ⟨.positive, ['N', 'a', 'N'], ?_, by simp, rfl, rfl, stored⟩
    rw [numberText, none, Number.write, none]
    rfl
  · rw [infinite] at stored
    refine ⟨sign, infinityWord, ?_, by simp [infinityWord], rfl, by cases sign <;> rfl, ?_⟩
    · rw [numberText, infinite]
      rfl
    · rw [numberOfSigned, if_pos rfl, ← stored]
      cases sign <;> rfl

theorem looseEquals_of_toNumber {x : Float} (number : x.isNaN = false) {s : String}
    (same : (string s).toNumber = x) :
    (Value.number x).looseEquals (string s) = true ∧
      (string s).looseEquals (Value.number x) = true := by
  have self : (x == x) = true := Float.beq_self_iff.mpr (by simpa using number)
  constructor
  · show (x == (string s).toNumber) = true
    rw [same]
    exact self
  · show ((string s).toNumber == x) = true
    rw [same]
    exact self

/-- A number is the number of the string that shows it, whatever blanks there are around it, down to
the sign of a zero and for the infinities and no number as well.  So for the language the number is
equal to this string, unless it is no number. -/
theorem toNumber_text (n : Float) (before behind : List Char) (blank : before.all isBlank = true)
    (blank' : behind.all isBlank = true) :
    (string (String.ofList (before ++ (number n).text ++ behind))).toNumber = n ∧
      (n.isNaN = false →
        (number n).looseEquals
          (string (String.ofList (before ++ (number n).text ++ behind))) = true ∧
        (string (String.ofList (before ++ (number n).text ++ behind))).looseEquals (number n) =
          true) := by
  have same : (string (String.ofList (before ++ (number n).text ++ behind))).toNumber = n := by
    obtain ⟨sign, unsigned, text, nonempty, solid, read, value⟩ := exists_numberText n
    rw [toNumber, String.toList_ofList, Value.text, text,
      numberOfText_padded blank blank' nonempty solid read, value]
  exact ⟨same, fun number => looseEquals_of_toNumber number same⟩

/-- The number below all others, between a tabulator and a wide blank. -/
theorem toNumber_text_negative :
    ['\t'].all isBlank = true ∧ ['\u2003'].all isBlank = true ∧
      (Number.ofParts (.infinity .negative)).isNaN = false ∧
      (string "\t-Infinity\u2003").toNumber = Number.ofParts (.infinity .negative) ∧
      (number (Number.ofParts (.infinity .negative))).looseEquals (string "\t-Infinity\u2003") =
        true := by
  have blank : ['\t'].all isBlank = true := rfl
  have blank' : ['\u2003'].all isBlank = true := rfl
  have number : (Number.ofParts (.infinity .negative)).isNaN = false := rfl
  obtain ⟨same, equal⟩ := toNumber_text (Number.ofParts (.infinity .negative)) _ _ blank blank'
  exact ⟨blank, blank', number, same, (equal number).1⟩

end Trigger.Value
