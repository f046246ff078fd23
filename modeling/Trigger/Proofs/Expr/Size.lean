import Mathlib.Algebra.GroupWithZero.Nat
import Trigger.Proofs.Expr.Exact
import Trigger.Proofs.Parser.Adequacy
import Trigger.Proofs.Parser.Progress

/-!
# The size of what is read

An expression has no more nodes than the tokens that it is read from (`Derives.size_le_length`).
Each node but a chain has a token that stands for it: its literal, its name, its operator or its
opening bracket.  A chain has none, and it is no node of its own.  Parentheses, commas and colons
are tokens that stand for no node.

Reading an expression reads a token at least, and so does whatever the grammar repeats.  The second
is seen from the form of the bodies (`grammar_eachRepeated`).
-/

namespace Trigger

namespace Expr

theorem sizeAll_eq (es : List Expr) : sizeAll es = (es.map size).sum := by
  induction es with
  | nil => rfl
  | cons e es ih => rw [sizeAll, ih, List.map_cons, List.sum_cons]

theorem sizeEntries_eq (entries : List (String × Expr)) :
    sizeEntries entries = (entries.map (·.2.size)).sum := by
  induction entries with
  | nil => rfl
  | cons entry entries ih => rw [sizeEntries, ih, List.map_cons, List.sum_cons]

theorem size_linked (base : Expr) (links : List Link) :
    (base.linked links).size = base.size + sizeLinks links := by
  cases links <;> rfl

end Expr

/-- The number of nodes of what a phrase stands for. -/
def Phrase.size : (p : Phrase) → p.Value → Nat
  | expression | binary _ | unary | postfixed | primary => Expr.size
  | links => Expr.sizeLinks
  | link => Expr.sizeLink
  | entry => fun v => v.2.size
  | list item | items item => fun vs => (vs.map item.size).sum

theorem Token.length_between (left : Delimiter) (u : List Token) (right : Delimiter) :
    (between left u right).length = u.length + 2 := by
  simp [between]

/-- A chain has no token of its own, and each other node has one. -/
theorem Derives.size_le_length {p : Phrase} {u : List Token} {v : p.Value} (word : Derives p u v) :
    p.size v ≤ u.length := by
  induction word with
  | expression _ ih | operand _ ih | tighter _ ih | bare _ ih | someItems _ ih => exact ih
  | noLinks | noItems | literal _ | name => exact Nat.le_refl _
  | member _ => exact Nat.le_succ 1
  | join _ _ _ left right =>
      simp only [Phrase.size, Expr.size, List.length_append, List.length_cons] at left right ⊢
      omega
  | apply _ ih => exact (Nat.add_comm ..).trans_le (Nat.succ_le_succ ih)
  | postfixed _ _ left right =>
      simp only [Phrase.size, Expr.size_linked, List.length_append] at left right ⊢
      omega
  | moreLinks _ _ left right =>
      simp only [Phrase.size, Expr.sizeLinks, List.length_append] at left right ⊢
      omega
  | method _ _ ih | call _ ih | array _ ih =>
      simp only [Phrase.size, Expr.size, Expr.sizeLink, Expr.sizeAll_eq, List.length_cons,
        Token.length_between] at ih ⊢
      omega
  | object _ ih =>
      rw [Phrase.size, Expr.size, Expr.sizeEntries_eq, Token.length_between, Nat.add_comm]
      exact Nat.add_le_add ih (Nat.le_succ 1)
  | index _ ih =>
      simp only [Phrase.size, Expr.sizeLink, Token.length_between] at ih ⊢
      omega
  | parenthesized _ ih =>
      rw [Token.length_between]
      exact Nat.le_add_right_of_le ih
  | entry _ _ ih => exact Nat.le_add_right_of_le (Nat.le_add_right_of_le ih)
  | trailing _ ih =>
      rw [List.length_append]
      exact Nat.le_add_right_of_le ih
  | last _ ih =>
      simp only [Phrase.size, List.map_cons, List.map_nil, List.sum_cons, List.sum_nil]
      omega
  | more _ _ left right =>
      simp only [Phrase.size, List.map_cons, List.sum_cons, List.length_append,
        List.length_cons] at left right ⊢
      omega

namespace Expr

theorem grammar_progresses {α : Type} (rule : Production α) :
    (grammar.body rule).progresses = true := by
  cases rule <;> rfl

theorem levels_eachRepeated (levels : List Level) :
    (levels.foldr Production.levelOf (.call .unary)).EachRepeated fun part =>
      part.progresses = true := by
  induction levels with
  | nil => trivial
  | cons level levels ih => exact ⟨ih, rfl, trivial, ih⟩

theorem grammar_eachRepeated {α : Type} (rule : Production α) :
    (grammar.body rule).EachRepeated fun part => part.progresses = true := by
  cases rule with
  | expression => exact levels_eachRepeated Level.all
  | unary => trivial

/-- A parser of tokens reads at least one of them whenever it accepts. -/
def Reads {α : Type} (parser : TokenParser α) : Prop :=
  ∀ (depth : Nat) (tokens : List Token) (p : Nat) (value : α) (next : Cursor Token),
    grammar.runWithin depth parser (.behind tokens p) = .success value next → p < next.position

theorem reads_of_progresses {α : Type} {parser : TokenParser α}
    (progresses : parser.progresses = true) : Reads parser := by
  intro depth tokens p value next outcome
  have sound : grammar.Sound tokens (grammar.runWithin depth parser) parser :=
    Grammar.sound_runWithin (g := grammar) depth parser
  rcases sound.cases p with stuck | ⟨_, q, read, ends⟩ | ⟨e, fails, -⟩
  · cases stuck.symm.trans outcome
  · cases read.symm.trans outcome
    exact ends.beyond grammar_progresses progresses
  · cases fails.symm.trans outcome

theorem size_le_of_parse {tokens : List Token} {p : Nat} {e : Expr} {next : Cursor Token}
    (outcome : Expr.parse tokens p = .success e next) :
    ∃ q, next = .behind tokens q ∧ p < q ∧ q ≤ tokens.length ∧ e.size ≤ q - p := by
  obtain ⟨u, rest, eq, rfl, word, -⟩ := (parse_success_iff tokens p e next).mp outcome
  have nonempty : 0 < u.length := startsIn_expression.length_pos word
  have fits : e.size ≤ u.length := word.size_le_length
  have behind : tokens.drop (p + u.length) = rest := by
    rw [← List.drop_drop, eq, List.drop_left]
  have long := congrArg List.length eq
  simp only [List.length_drop, List.length_append] at long
  exact ⟨p + u.length, by rw [Cursor.behind, behind], by omega, by omega, by omega⟩

/-- An expression is read up to a place behind its start, and it has at most as many nodes as there
are tokens between the two.  Whatever the grammar repeats reads something.  So the expression of a
text has at most as many nodes as the text has significant tokens. -/
theorem size_le_tokens_read :
    (∀ (tokens : List Token) (p : Nat) (e : Expr) (next : Cursor Token),
      Expr.parse tokens p = .success e next →
        ∃ q, next = .behind tokens q ∧ p < q ∧ q ≤ tokens.length ∧ e.size ≤ q - p) ∧
    (∀ {α : Type} (rule : Production α), (grammar.body rule).EachRepeated Reads) ∧
    (∀ (cs : List Char) (e : Expr), Expr.ofText cs = .ok e →
      ∃ all, Token.ofText cs = .ok all ∧ e.size ≤ (Span.significant all).length) := by
  refine ⟨fun _ _ _ _ => size_le_of_parse, ?_, ?_⟩
  · intro α rule
    exact (grammar_eachRepeated rule).mono fun _ => reads_of_progresses
  · intro cs e answer
    obtain ⟨all, scanned, -, word⟩ := (ofText_ok_iff cs e).mp answer
    have fits : e.size ≤ (significantTokens all).length := word.size_le_length
    rw [significantTokens, List.length_map] at fits
    exact ⟨all, scanned, fits⟩

/-- Two links behind a name, between commas. -/
def linkTokens : List Token :=
  [Token.comma, .name "a", .operator .dot, .name "b", .delimiter .openBracket, .name "c",
    .delimiter .closeBracket, Token.comma]

theorem size_le_tokens_read_links :
    Expr.parse linkTokens 1 =
      .success (chain (.name "a") [.member "b" false, .index (.name "c")]) ⟨7, [Token.comma]⟩ ∧
    (∃ q, ⟨7, [Token.comma]⟩ = Cursor.behind linkTokens q ∧ 1 < q ∧ q ≤ linkTokens.length ∧
      (chain (.name "a") [.member "b" false, .index (.name "c")]).size ≤ q - 1) ∧
    Expr.ofText ['!', 'f', '(', 'x', ')'] = .ok (.unary .not (.call "f" [.name "x"])) ∧
    ∃ all, Token.ofText ['!', 'f', '(', 'x', ')'] = .ok all ∧
      (unary .not (.call "f" [.name "x"])).size ≤ (Span.significant all).length :=
  ⟨rfl, size_le_tokens_read.1 linkTokens 1 _ _ rfl, rfl, size_le_tokens_read.2.2 _ _ rfl⟩

end Expr

end Trigger
