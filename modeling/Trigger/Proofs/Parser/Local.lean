import Trigger.Proofs.Parser.Depth

/-!
# Parsers are local

A parser that starts at a place does there what it does at the start of the items that stand behind
the place.  Only the places that it answers with are others, those in its errors included: all of
them are shifted by the number of items in front (`ends_drop_iff`).

A run over the items behind a place and the same run over the whole input are related both ways
(`Relatedness.shifted`), so one of them is endless exactly if the other one is.
-/

namespace Trigger

variable {τ α : Type}

/-! ## Shifted places -/

/-- The same items, with more of them in front. -/
def Cursor.shift (n : Nat) (c : Cursor τ) : Cursor τ := ⟨c.position + n, c.rest⟩

theorem Cursor.shift_behind (input : List τ) (p q : Nat) :
    (Cursor.behind (input.drop p) q).shift p = .behind input (q + p) := by
  simp [shift, behind, List.drop_drop, Nat.add_comm]

/-- The error with its place shifted. -/
def ParseError.shift (n : Nat) : ParseError → ParseError
  | endOfInput => endOfInput
  | noAlternative => noAlternative
  | unexpected expected found place => unexpected expected found (place + n)
  | unsatisfied place => unsatisfied (place + n)
  | within part inner => within part (inner.shift n)

/-- The outcome with its places shifted. -/
def Outcome.shift (n : Nat) : Outcome τ α → Outcome τ α
  | success value next => success value (next.shift n)
  | failure error => failure (error.shift n)
  | endless => endless

/-- The ending with its places shifted. -/
def Ending.shift (n : Nat) : Ending α → Ending α
  | success value place => success value (place + n)
  | failure error => failure (error.shift n)

theorem Ending.outcome_shift (input : List τ) (p : Nat) (ending : Ending α) :
    (ending.shift p).outcome input = (ending.outcome (input.drop p)).shift p := by
  cases ending with
  | success value q => exact congrArg (Outcome.success value) (Cursor.shift_behind input p q).symm
  | failure e => rfl

/-- The cursors of an input, each related to the one with more items in front. -/
def Relatedness.shifted (τ : Type) (n : Nat) : Relatedness τ where
  cursors c c' := c' = c.shift n
  errors e e' := e' = e.shift n
  rest_eq := by
    rintro c _ rfl
    rfl
  step := by
    rintro p item rest p' same
    cases same
    simp only [Cursor.shift, Nat.add_right_comm]
  lt_iff := by
    rintro c _ d _ rfl rfl
    exact Nat.add_lt_add_iff_right
  endOfInput := rfl
  noAlternative := rfl
  unexpected := by
    rintro c _ _ _ rfl
    simp only [Cursor.shift, ParseError.shift, Nat.add_right_comm]
  unsatisfied := by
    rintro c _ rfl
    simp only [Cursor.shift, ParseError.shift, Nat.add_right_comm]
  within := by
    rintro e _ _ rfl
    rfl

/-- Outcomes that are related both ways are shifted, the endless one included. -/
theorem Relatedness.Outcomes.eq_shift {n : Nat} {o o' : Outcome τ α}
    (there : (shifted τ n).Outcomes o o') (back : (shifted τ n).symm.Outcomes o' o) :
    o' = o.shift n := by
  cases there with
  | endless =>
      cases back with
      | endless => rfl
  | success next => exact congrArg (Outcome.success _) next
  | failure errors => exact congrArg Outcome.failure errors

/-! ## Local parsers -/

section
variable [DecidableEq τ] [Written τ]

namespace Grammar

theorem runWithin_shift (g : Grammar τ) (depth : Nat) (parser : Parser τ g.Rule α) (n : Nat)
    (c : Cursor τ) :
    g.runWithin depth parser (c.shift n) = (g.runWithin depth parser c).shift n := by
  have follows {r : Relatedness τ} :
    r.Follows (g.runWithin depth parser) (g.runWithin depth parser) :=
    g.follows_runWithin (Nat.le_refl depth) parser
  exact Relatedness.Outcomes.eq_shift (follows rfl) (follows rfl)

theorem runWithin_drop (g : Grammar τ) (depth : Nat) (parser : Parser τ g.Rule α) (input : List τ)
    (p : Nat) :
    g.runWithin depth parser (.behind input p) =
      (g.runWithin depth parser (.behind (input.drop p) 0)).shift p := by
  rw [← runWithin_shift, Cursor.shift_behind, Nat.zero_add]

theorem ends_drop_iff {g : Grammar τ} {input : List τ} {parser : Parser τ g.Rule α} {p : Nat}
    {ending : Ending α} :
    g.Ends input parser p ending ↔
      ∃ ending', g.Ends (input.drop p) parser 0 ending' ∧ ending'.shift p = ending := by
  constructor
  · intro ends
    obtain ⟨depth, same⟩ := ends_iff.mp ends
    rw [runWithin_drop] at same
    rcases sound_runWithin depth parser 0 with stuck | ⟨ending', same', ends'⟩
    · rw [stuck] at same
      exact absurd same.symm (ending.outcome_ne_endless input)
    · rw [same', ← Ending.outcome_shift] at same
      exact ⟨ending', ends', Ending.outcome_injective input same⟩
  · rintro ⟨ending', ends, rfl⟩
    obtain ⟨depth, same⟩ := ends_iff.mp ends
    exact ends_iff.mpr ⟨depth, by rw [runWithin_drop, same, Ending.outcome_shift]⟩

/-! ## Alternatives that fail -/

theorem ends_orElse_iff {g : Grammar τ} {input : List τ} {first : Parser τ g.Rule α} {p : Nat}
    {e : ParseError} (fails : g.Ends input first p (.failure e)) {second : Parser τ g.Rule α}
    {ending : Ending α} :
    g.Ends input (.orElse first second) p ending ↔ g.Ends input second p ending := by
  constructor
  · intro ends
    cases ends with
    | first ends => cases fails.unique ends
    | second _ ends => exact ends
  · exact .second fails

theorem ends_choice_iff {g : Grammar τ} {input : List τ} {p : Nat}
    {abandoned alternatives : List (Parser τ g.Rule α)}
    (fail : ∀ a ∈ abandoned, ∃ e, g.Ends input a p (.failure e)) {ending : Ending α} :
    g.Ends input (.choice (abandoned ++ alternatives)) p ending ↔
      g.Ends input (.choice alternatives) p ending := by
  induction abandoned with
  | nil => rfl
  | cons a abandoned ih =>
      obtain ⟨⟨e, fails⟩, others⟩ := List.forall_mem_cons.mp fail
      exact (ends_orElse_iff fails).trans (ih others)

/-- A parser that starts inside the input ends between its start and the end of the input, in one
way at most.  It ends there as it does at the start of the items that stand there, with all places
shifted.  So the items in front of it do not matter, and neither do alternatives that have failed.
The endings are what its runs come to, and `parse` runs deep enough for them where the rules are
counted. -/
theorem ends_locally (g : Grammar τ) (parser : Parser τ g.Rule α) (input : List τ) {p : Nat}
    (start : p ≤ input.length) :
    (∀ value q, g.Ends input parser p (.success value q) → p ≤ q ∧ q ≤ input.length) ∧
    (∀ ending, g.Ends input parser p ending ↔
      ∃ ending', g.Ends (input.drop p) parser 0 ending' ∧ ending'.shift p = ending) ∧
    (∀ before : List τ, before.length = p → ∀ ending,
      (g.Ends (before ++ input.drop p) parser p ending ↔ g.Ends input parser p ending)) ∧
    (∀ abandoned alternatives : List (Parser τ g.Rule α),
      (∀ a ∈ abandoned, ∃ e, g.Ends input a p (.failure e)) → ∀ ending,
        (g.Ends input (.choice (abandoned ++ alternatives)) p ending ↔
          g.Ends input (.choice alternatives) p ending)) ∧
    (∀ ending ending', g.Ends input parser p ending → g.Ends input parser p ending' →
      ending = ending') ∧
    (∀ ending, g.Ends input parser p ending ↔
      ∃ depth, g.runWithin depth parser (.behind input p) = ending.outcome input) ∧
    (g.parse parser input p = .endless ∨
      ∃ ending, g.parse parser input p = ending.outcome input ∧ g.Ends input parser p ending) ∧
    (g.Counted →
      (∀ ending, g.parse parser input p = ending.outcome input ↔ g.Ends input parser p ending) ∧
      (g.parse parser input p = .endless ↔ ∀ ending, ¬ g.Ends input parser p ending)) ∧
    g.parse parser input p = (g.parse parser (input.drop p) 0).shift p := by
  refine ⟨?_, fun _ => ends_drop_iff, ?_, fun _ _ fail _ => ends_choice_iff fail,
    fun _ _ => Ends.unique, fun _ => ends_iff, sound_runWithin _ parser p,
    fun counted => ⟨fun _ => parse_eq_iff counted, parse_endless_iff counted⟩, ?_⟩
  · intro value q ends
    obtain ⟨le, bound⟩ := ends.inside
    exact ⟨le, by omega⟩
  · rintro before rfl ending
    rw [ends_drop_iff, List.drop_left, ← ends_drop_iff]
  · rw [parse, parse, runWithin_drop, List.drop_zero]

end Grammar

end

/-! ## Nested brackets -/

instance : Written Char where
  written c := String.ofList [c]

/-- The rule of nested brackets. -/
inductive Nest : Type → Type where
  | brackets : Nest Nat

/-- Brackets with brackets inside or nothing, read as their number. -/
def Nest.grammar : Grammar Char where
  Rule := Nest
  rules := 1
  body
    | .brackets => .within "brackets" (.map (fun inner => inner.getD 0 + 1)
        (.delimited (.equal '(') (.optional (.call .brackets)) (.equal ')')))

theorem Nest.counted : grammar.Counted := by
  refine ⟨fun _ => (0 : Fin 1), ?_⟩
  rintro ⟨_, ⟨⟩⟩ ⟨_, ⟨⟩⟩ _
  rfl

/-- Brackets behind another character, and brackets that another character interrupts. -/
theorem Grammar.ends_locally_brackets :
    1 ≤ "a(())".toList.length ∧
    Nest.grammar.Ends "a(())".toList (.call .brackets) 1 (.success 2 5) ∧
    Nest.grammar.Ends "(())".toList (.call .brackets) 0 (.success 2 4) ∧
    Nest.grammar.Counted ∧
    Nest.grammar.parse (.call .brackets) "a(())".toList 1 =
      (Ending.success 2 5).outcome "a(())".toList ∧
    1 ≤ "a((b".toList.length ∧
    Nest.grammar.Ends "a((b".toList (.call .brackets) 1
      (.failure (.within "brackets" (.unexpected ")" "(" 3))) ∧
    Nest.grammar.Ends "((b".toList (.call .brackets) 0
      (.failure (.within "brackets" (.unexpected ")" "(" 2))) := by
  have start : 1 ≤ "a(())".toList.length := by decide
  have start' : 1 ≤ "a((b".toList.length := by decide
  have closed : Nest.grammar.Ends "(())".toList (.call .brackets) 0 (.success 2 4) :=
    ends_iff.mpr ⟨3, rfl⟩
  have broken : Nest.grammar.Ends "((b".toList (.call .brackets) 0
      (.failure (.within "brackets" (.unexpected ")" "(" 2))) := ends_iff.mpr ⟨3, rfl⟩
  obtain ⟨-, shifted, -, -, -, -, -, parsed, -⟩ :=
    ends_locally Nest.grammar (.call .brackets) _ start
  obtain ⟨-, shifted', -⟩ := ends_locally Nest.grammar (.call .brackets) _ start'
  have behind : Nest.grammar.Ends "a(())".toList (.call .brackets) 1 (.success 2 5) :=
    (shifted _).mpr ⟨_, closed, rfl⟩
  exact ⟨start, behind, closed, Nest.counted, ((parsed Nest.counted).1 _).mpr behind,
    start', (shifted' _).mpr ⟨_, broken, rfl⟩, broken⟩

end Trigger
