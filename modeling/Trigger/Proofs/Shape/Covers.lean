import Trigger.Proofs.Shape.TopLevel

/-!
# The tokens of a recognized text

A recognized text is part of a longer one, and the scanner goes over it into what stands behind.
`Covers cs Q` says that the tokens of `cs` end there, whatever recognized text `cs` is a part of,
and that they have the property `Q`.

A text that matches a pattern covers the tokens that the pattern reads.  The other forms of the
catalog are made of recognized texts, and so are their tokens.  `Shape.ofTextWithin_induction` is
the recursion of the recognition, for what holds of every recognized text.
-/

namespace Trigger

open Text (stripParens? splitTopLevel?)

/-- In front of what may stand behind a recognized text, the tokens of the text have the
property. -/
def Covers (cs : List Char) (Q : List Token → Prop) : Prop :=
  ∀ (tail : List Char) (ts : List Token), Closes tail → Scans (cs ++ tail) ts →
    ∃ u w, ts = u ++ w ∧ Scans tail w ∧ Q u

theorem covers_of_captures? {ps : Pattern} {cs : List Char} {c : Captures}
    (separate : ps.separate = true) (found : ps.captures? cs = some c) : Covers cs (ps.Reads · c) :=
  fun _ _ closes scans => Pattern.reads_of_captures? separate found closes scans

namespace Covers

variable {cs left right : List Char} {Q R : List Token → Prop}

theorem mono (covers : Covers cs Q) (weaker : ∀ u, Q u → R u) : Covers cs R := by
  intro tail ts closes scans
  obtain ⟨u, w, eq, behind, holds⟩ := covers tail ts closes scans
  exact ⟨u, w, eq, behind, weaker u holds⟩

/-- A text that stands alone. -/
theorem whole {ts : List Token} (covers : Covers cs Q) (scans : Scans cs ts) : Q ts := by
  rw [← List.append_nil cs] at scans
  obtain ⟨u, w, rfl, behind, holds⟩ := covers [] ts closes_nil scans
  rwa [behind.nil_inv, List.append_nil]

theorem parenthesized {inner : List Char} (stripped : Text.stripParens? cs = some inner)
    (covers : Covers inner Q) :
    Covers cs fun u => ∃ v, Q v ∧ u = Token.between .openParen v .closeParen := by
  intro tail ts closes scans
  obtain ⟨blanks, eq, blank⟩ := Text.stripParens?_eq_some stripped
  have scans := scans.trimStart
  rw [closes.trimStart_append, eq] at scans
  have first := first?_delimiter .openParen (inner ++ ')' :: blanks ++ tail)
  obtain ⟨ts, rfl, inside⟩ := scans.seen_inv first rfl
  rw [List.append_assoc] at inside
  obtain ⟨v, w, rfl, closing, holds⟩ := covers _ _ (closes_cons (by simp [closers]) _) inside
  have last := first?_delimiter .closeParen (blanks ++ tail)
  obtain ⟨ts, rfl, behind⟩ := closing.seen_inv last rfl
  have behind := behind.trimStart
  rw [closes.trimStart_append, blank] at behind
  exact ⟨_, ts, by simp [Token.between], behind, v, holds, rfl⟩

/-- Two texts around a logical operator. -/
theorem around (op : BinaryOp) (logical : op.isLogical = true) (covers : Covers left Q)
    (covers' : Covers right R) :
    Covers (left ++ op.symbol.text ++ right) fun u =>
      ∃ v w, (Q v ∧ R w) ∧ u = v ++ .operator op.symbol :: w := by
  intro tail ts closes scans
  have front : Closes (op.symbol.text ++ (right ++ tail)) := by
    cases op with
    | or | and => exact closes_cons (by simp [closers]) _
    | _ => cases logical
  rw [List.append_assoc, List.append_assoc] at scans
  obtain ⟨v, ts, rfl, joint, holds⟩ := covers _ _ front scans
  have first := @first?_operator op.symbol (right ++ tail) fun d _ => by
    cases op <;> cases logical <;> rfl
  obtain ⟨ts, rfl, behind⟩ := joint.seen_inv first rfl
  obtain ⟨w, ts, rfl, behind, holds'⟩ := covers' _ _ closes behind
  exact ⟨_, ts, by simp, behind, v, w, ⟨holds, holds'⟩, rfl⟩

end Covers

/-! ## The recursion of the recognition -/

/-- What holds of the texts with a pattern, and of what is made of texts of which it holds, holds of
every recognized text and its shape. -/
theorem Shape.ofTextWithin_induction {P : List Char → Shape → Prop}
    (leaf : ∀ {cs form shape}, leaf? cs = some (form, shape) → P cs shape)
    (parenthesized : ∀ {cs inner shape}, stripParens? cs = some inner → P inner shape → P cs shape)
    (disjunction : ∀ {cs left right l r}, splitTopLevel? Operator.or.text cs = some (left, right) →
      P left l → P right r → P cs (.either l r))
    (conjunction : ∀ {cs left right l r}, splitTopLevel? Operator.or.text cs = none →
      splitTopLevel? Operator.and.text cs = some (left, right) → P left l → P right r →
      P cs (.both l r))
    {depth : Nat} {cs : List Char} {form : Form} {shape : Shape}
    (found : ofTextWithin depth cs = some (form, shape)) : P cs shape := by
  induction depth generalizing cs form shape with
  | zero => cases found
  | succ depth ih =>
      simp only [ofTextWithin, Option.orElse_eq_orElse, Option.orElse_eq_or,
        Option.or_eq_some_iff] at found
      rcases found with known | ⟨-, brackets | ⟨-, either | ⟨-, both⟩⟩⟩
      · exact leaf known
      · obtain ⟨inner, stripped, more⟩ := Option.bind_eq_some_iff.mp brackets
        obtain ⟨⟨form', shape'⟩, known, same⟩ := Option.bind_eq_some_iff.mp more
        cases same
        exact parenthesized stripped (ih known)
      · obtain ⟨⟨left, right⟩, split, more⟩ := Option.bind_eq_some_iff.mp either
        obtain ⟨⟨form₁, shape₁⟩, known₁, more⟩ := Option.bind_eq_some_iff.mp more
        obtain ⟨⟨form₂, shape₂⟩, known₂, same⟩ := Option.bind_eq_some_iff.mp more
        cases same
        exact disjunction split (ih known₁) (ih known₂)
      · unfold conjunction? at both
        split at both
        · cases both
        · rename_i whole
          obtain ⟨⟨left, right⟩, split, more⟩ := Option.bind_eq_some_iff.mp both
          obtain ⟨⟨form₁, shape₁⟩, known₁, more⟩ := Option.bind_eq_some_iff.mp more
          obtain ⟨⟨form₂, shape₂⟩, known₂, same⟩ := Option.bind_eq_some_iff.mp more
          cases same
          exact conjunction (by simpa using whole) split (ih known₁) (ih known₂)

end Trigger
