import Mathlib.Algebra.GroupWithZero.Nat
import Mathlib.Data.List.DropRight
import Mathlib.Data.List.Nodup
import Trigger.Proofs.Token.Spelling

/-!
# Where tokens stand

A scanner may be given one text after the other.  Each scan starts at the place where the one before
it ended, which is in front of the error if it failed.  So positions count in one long text: what
has been consumed of all texts so far.  `Position.behind` says what they count, without following a
scan, and `positions_exact` that the scanner counts the same:

* The spans of a text stand one behind the other, and nothing is left out between them.
* Each span starts where the consumed text in front of it ends, and so does an error.
* The characters of a span, scanned alone, are its token and no other.  A spelling is cut off
  wherever its token stops (`Spelled.first?`), and every token stops at the end of a text
  (`Spelled.stops_nil`).
-/

namespace Trigger

namespace Position

/-- The place behind a text: it counts the bytes, the line feeds, and the characters behind the last
of these. -/
def behind (cs : List Char) : Position where
  offset := (cs.map Char.utf8Size).sum
  line := 1 + cs.count '\n'
  column := 1 + (cs.rtakeWhile (· ≠ '\n')).length

theorem next_behind (cs : List Char) (c : Char) : (behind cs).next c = behind (cs ++ [c]) := by
  cases feed : decide (c = '\n') with
  | true =>
      obtain rfl : c = '\n' := of_decide_eq_true feed
      simp [next, behind, Nat.add_assoc]
  | false =>
      have apart : c ≠ '\n' := of_decide_eq_false feed
      simp [next, behind, apart, Nat.add_assoc]

/-- To move over a piece of text is to stand behind it. -/
theorem after_behind (cs ds : List Char) : (behind cs).after ds = behind (cs ++ ds) := by
  induction ds generalizing cs with
  | nil => rw [List.append_nil, after, List.foldl_nil]
  | cons d ds ih =>
      have step := ih (cs ++ [d])
      rw [← next_behind, List.append_assoc] at step
      exact step

end Position

namespace Token

/-! ## One text -/

/-- Every token stops at the end of a text. -/
theorem Spelled.stops_nil {token : Token} {source : List Char} (spelled : token.Spelled source) :
    token.Stops [] := by
  cases spelled with
  | lineComment _ => exact rfl
  | number _ _ _ => exact ⟨nofun, rfl⟩
  | blanks _ _ => exact nofun
  | operator _ => exact nofun
  | word _ _ =>
      unfold Lexeme.ofWord
      split <;> exact nofun
  | _ => trivial

/-- The characters of a token, scanned alone, are the token. -/
theorem Spelled.ofText {token : Token} {source : List Char} (spelled : token.Spelled source) :
    Token.ofText source = .ok [⟨token, source, .start⟩] := by
  have found := spelled.first? spelled.stops_nil
  rw [List.append_nil] at found
  obtain ⟨c, cs, rfl⟩ := List.exists_cons_of_ne_nil spelled.ne_nil
  have one := scanWithin_of_first? found cs.length .start
  have rest : (scanWithin cs.length (Position.start.after (c :: cs)) []).1 = .ok [] := by
    cases cs.length <;> rfl
  rw [rest] at one
  exact one

/-- Behind the consumed text the spans stand one behind the other, each in its place, and each is
its token when it is scanned alone. -/
def Placed (consumed : List Char) : List Span → Prop
  | [] => True
  | span :: spans =>
    span.start = .behind consumed ∧ span.stop = (Position.behind (consumed ++ span.source)).offset ∧
      Token.ofText span.source = .ok [⟨span.token, span.source, .start⟩] ∧
      Placed (consumed ++ span.source) spans

/-- The part of a text that a scan consumes: all of it, or what stands in front of the error. -/
def consumed (cs : List Char) : Except ScanError (List Span) → List Char
  | .ok _ => cs
  | .error e => cs.take (cs.length - e.remaining.length)

/-- A scan of a text behind a consumed one has every position right. -/
structure Exact (prior cs : List Char) (scanned : Scanned) : Prop where
  /-- The spans are the text, and they stand in their places. -/
  spans : ∀ spans, scanned.1 = .ok spans → spans.flatMap Span.source = cs ∧ Placed prior spans
  /-- An error stands behind the consumed part of the text, where no token starts. -/
  error : ∀ e, scanned.1 = .error e →
    cs = consumed cs scanned.1 ++ e.remaining ∧ e.remaining ≠ [] ∧
      Lexeme.first? e.remaining = none ∧ e.position = .behind (prior ++ consumed cs scanned.1)
  /-- The scan ends behind the consumed part of the text. -/
  last : scanned.2 = .behind (prior ++ consumed cs scanned.1)

/-- The consumed part is what stands in front of the text that is left. -/
theorem consumed_error (done : List Char) (e : ScanError) :
    consumed (done ++ e.remaining) (.error e) = done := by
  rw [consumed, List.length_append, Nat.add_sub_cancel, List.take_left']
  rfl

namespace Exact

variable {prior cs source : List Char} {token : Token} {scanned : Scanned}

theorem nil (prior : List Char) : Exact prior [] (.ok [], .behind prior) where
  spans := by
    rintro _ ⟨⟩
    exact ⟨rfl, trivial⟩
  error := nofun
  last := by rw [consumed, List.append_nil]

/-- Where no token starts, nothing is consumed. -/
theorem stuck (prior : List Char) (nonempty : cs ≠ []) (none : Lexeme.first? cs = none) :
    Exact prior cs (.error ⟨.behind prior, cs⟩, .behind prior) where
  spans := nofun
  error := by
    rintro _ ⟨⟩
    refine ⟨?_, nonempty, none, ?_⟩
    · rw [consumed, Nat.sub_self, List.take_zero, List.nil_append]
    · rw [consumed, Nat.sub_self, List.take_zero, List.append_nil]
  last := by rw [consumed, Nat.sub_self, List.take_zero, List.append_nil]

/-- A token in front of a text that is scanned right. -/
theorem cons (exact : Exact (prior ++ source) cs scanned) (spelled : token.Spelled source) :
    Exact prior (source ++ cs)
      (scanned.1.map (⟨token, source, .behind prior⟩ :: ·), scanned.2) := by
  obtain ⟨result, last⟩ := scanned
  cases result with
  | ok spans =>
      obtain ⟨whole, placed⟩ := exact.spans spans rfl
      refine ⟨?_, nofun, ?_⟩
      · rintro _ ⟨⟩
        have stop : Span.stop ⟨token, source, .behind prior⟩ =
            (Position.behind (prior ++ source)).offset := by
          rw [Span.stop, Position.after_behind]
        refine ⟨?_, rfl, stop, spelled.ofText, placed⟩
        rw [List.flatMap_cons, whole]
      · have behind := exact.last
        rw [List.append_assoc] at behind
        exact behind
  | error e =>
      obtain ⟨split, nonempty, none, position⟩ := exact.error e rfl
      have done : consumed (source ++ cs) (.error e) = source ++ consumed cs (.error e) := by
        conv_lhs => rw [split, ← List.append_assoc, consumed_error]
      refine ⟨nofun, ?_, ?_⟩
      · rintro _ ⟨⟩
        refine ⟨?_, nonempty, none, ?_⟩
        · conv_lhs => rw [split]
          exact (List.append_assoc _ _ _).symm.trans (congrArg (· ++ _) done.symm)
        · rw [List.append_assoc, ← done] at position
          exact position
      · have behind := exact.last
        rw [List.append_assoc, ← done] at behind
        exact behind

end Exact

/-- A scan that may read a token for each character has every position right. -/
theorem exact_scanWithin {fuel : Nat} {cs : List Char} (enough : cs.length ≤ fuel)
    (prior : List Char) : Exact prior cs (scanWithin fuel (.behind prior) cs) := by
  induction fuel generalizing cs prior with
  | zero =>
      obtain rfl := List.length_eq_zero_iff.mp (Nat.le_zero.mp enough)
      exact .nil prior
  | succ fuel ih =>
      cases cs with
      | nil => exact .nil prior
      | cons c cs =>
          cases found : Lexeme.first? (c :: cs) with
          | none =>
              have scanned := Exact.stuck prior (by simp) found
              simpa only [scanWithin, found] using scanned
          | some lexeme =>
              obtain ⟨token, source, rest⟩ := lexeme
              obtain ⟨spelled, eq⟩ := spelled_of_first? found
              have shorter := length_of_first? found
              have behind : Exact _ rest _ := ih (by omega) (prior ++ source)
              rw [← Position.after_behind] at behind
              have scanned := behind.cons spelled
              rw [← eq] at scanned
              simpa only [scanWithin, found] using scanned

theorem exact_scan (prior cs : List Char) : Exact prior cs (scan (.behind prior) cs) :=
  exact_scanWithin (Nat.le_refl _) prior

/-! ## One text after the other -/

/-- What each of some texts scans into, where each scan starts at the place where the one before it
ended. -/
def scanAll (p : Position) : List (List Char) → List Scanned
  | [] => []
  | cs :: texts => scan p cs :: scanAll (scan p cs).2 texts

/-- The scans of texts are right, each behind what has been consumed of those in front of it. -/
def AllExact (prior : List Char) : List (List Char) → List Scanned → Prop
  | [], [] => True
  | cs :: texts, scanned :: more =>
    Exact prior cs scanned ∧ AllExact (prior ++ consumed cs scanned.1) texts more
  | _, _ => False

theorem allExact_scanAll (prior : List Char) (texts : List (List Char)) :
    AllExact prior texts (scanAll (.behind prior) texts) := by
  induction texts generalizing prior with
  | nil => trivial
  | cons cs texts ih =>
      have first := exact_scan prior cs
      rw [scanAll, first.last]
      exact ⟨first, ih _⟩

/-- Of texts that are scanned one after the other, every scan is exact.  The spans of a text are the
whole text, and each of them, like an error, stands at the place behind all that has been consumed
in front of it.  Each span is scanned alone into its own token. -/
theorem positions_exact (texts : List (List Char)) :
    AllExact [] texts (scanAll .start texts) :=
  allExact_scanAll [] texts

/-- Behind an error in the second line, the next text starts in front of it. -/
example : (scanAll .start ["é\n#".toList, "b c".toList]).map (·.2) = [⟨3, 2, 1⟩, ⟨6, 2, 4⟩] := by
  decide +kernel

end Token

end Trigger
