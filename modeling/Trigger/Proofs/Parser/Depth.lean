import Mathlib.Data.Fintype.Prod
import Mathlib.Order.Interval.Finset.Nat
import Mathlib.Order.Monotone.Basic
import Trigger.Proofs.Parser.Related

/-!
# How deep calls nest

The depth that `Grammar.parse` allows is enough for every parser of a grammar with no more rules
than it says (`parse_eq_iff`).

A run that starts at a place calls rules at that place or behind it.  Each level of calls lets
further ones of these come to an outcome, or it adds nothing, and then no deeper level does
(`card_finished_succ`).  There are as many of them as rules and places, so that many levels are
enough (`follows_of_counted`).
-/

namespace Trigger

variable {τ α : Type} {input : List τ} {p : Nat}

/-- The cursors of an input from a place on, each related to itself. -/
def Relatedness.onward (input : List τ) (start : Nat) : Relatedness τ where
  cursors c c' := c' = c ∧ ∃ q, start ≤ q ∧ q ≤ max start input.length ∧ c = .behind input q
  errors e e' := e' = e
  rest_eq := fun ⟨same, _⟩ => same ▸ rfl
  step := by
    rintro q item rest q' ⟨same, _, le, bound, here⟩
    cases same
    obtain ⟨rfl, eq⟩ := Cursor.mk.inj here
    have long := congrArg List.length eq
    rw [List.length_cons, List.length_drop] at long
    refine ⟨rfl, q + 1, Nat.le_succ_of_le le, by omega, ?_⟩
    rw [Cursor.behind, ← List.drop_drop, ← eq, List.drop_one, List.tail_cons]
  lt_iff := fun ⟨same, _⟩ ⟨same', _⟩ => by rw [same, same']
  endOfInput := rfl
  noAlternative := rfl
  unexpected := fun ⟨same, _⟩ => same ▸ rfl
  unsatisfied := fun ⟨same, _⟩ => same ▸ rfl
  within := congrArg _

namespace Relatedness

theorem onward_behind {q : Nat} (le : p ≤ q) (bound : q ≤ max p input.length) :
    (onward input p).cursors (.behind input q) (.behind input q) :=
  ⟨rfl, q, le, bound, rfl⟩

theorem Outcomes.eq_of_onward {o o' : Outcome τ α} (outcomes : (onward input p).Outcomes o o')
    (ends : o ≠ .endless) : o' = o := by
  cases outcomes with
  | endless => exact absurd rfl ends
  | success next => rw [next.1]
  | failure errors => rw [errors]

end Relatedness

namespace Grammar

open Relatedness (onward onward_behind)

/-- The grammar has no more rules than it says. -/
def Counted (g : Grammar τ) : Prop :=
  ∃ number : (Σ α, g.Rule α) → Fin g.rules, Function.Injective number

variable [DecidableEq τ] [Written τ] {g : Grammar τ}

open Classical in
/-- The calls from a place on that come to an outcome within the depth. -/
noncomputable def finished (g : Grammar τ) (number : (Σ α, g.Rule α) → Fin g.rules) (input : List τ)
    (p depth : Nat) : Finset (Fin g.rules × Nat) :=
  (Finset.univ ×ˢ Finset.Icc p (max p input.length)).filter fun call =>
    ∃ (α : Type) (rule : g.Rule α), number ⟨α, rule⟩ = call.1 ∧
      g.runWithin depth (.call rule) (.behind input call.2) ≠ .endless

variable {number : (Σ α, g.Rule α) → Fin g.rules} {depth depth' : Nat}

theorem mem_finished {call : Fin g.rules × Nat} :
    call ∈ g.finished number input p depth ↔
      (p ≤ call.2 ∧ call.2 ≤ max p input.length) ∧
      ∃ (α : Type) (rule : g.Rule α), number ⟨α, rule⟩ = call.1 ∧
        g.runWithin depth (.call rule) (.behind input call.2) ≠ .endless := by
  simp [finished]

theorem card_finished_le (depth : Nat) :
    (g.finished number input p depth).card ≤ g.rules * ((input.drop p).length + 1) := by
  have places : max p input.length + 1 - p = (input.drop p).length + 1 := by
    rw [List.length_drop]
    omega
  have subset : g.finished number input p depth ⊆
      Finset.univ ×ˢ Finset.Icc p (max p input.length) := fun call inside =>
    Finset.mem_product.mpr ⟨Finset.mem_univ _, Finset.mem_Icc.mpr (mem_finished.mp inside).1⟩
  calc (g.finished number input p depth).card
    _ ≤ (Finset.univ ×ˢ Finset.Icc p (max p input.length)).card := Finset.card_le_card subset
    _ = g.rules * ((input.drop p).length + 1) := by
      rw [Finset.card_product, Finset.card_univ, Fintype.card_fin, Nat.card_Icc, places]

theorem finished_subset (follows : ∀ {α : Type} (rule : g.Rule α), (onward input p).Follows
      (g.runWithin depth (.call rule)) (g.runWithin depth' (.call rule))) :
    g.finished number input p depth ⊆ g.finished number input p depth' := by
  intro call inside
  obtain ⟨⟨le, bound⟩, α, rule, named, ends⟩ := mem_finished.mp inside
  have same := (follows rule (onward_behind le bound)).eq_of_onward ends
  exact mem_finished.mpr ⟨⟨le, bound⟩, α, rule, named, same ▸ ends⟩

theorem finished_mono : Monotone (g.finished number input p) :=
  fun _ _ le => finished_subset fun rule => g.follows_runWithin le (.call rule)

/-- A shallower run follows where all calls that the deeper one finishes are finished by it. -/
theorem follows_of_finished_subset (injective : Function.Injective number) (le : depth ≤ depth')
    (subset : g.finished number input p depth' ⊆ g.finished number input p depth)
    (parser : Parser τ g.Rule α) :
    (onward input p).Follows (g.runWithin depth' parser) (g.runWithin depth parser) := by
  refine follows_of_calls (fun {α} rule => ?_) parser
  rintro c _ ⟨rfl, q, start, bound, rfl⟩
  by_cases ends : g.runWithin depth' (.call rule) (.behind input q) = .endless
  · rw [ends]
    exact .endless
  · have inside : (number ⟨α, rule⟩, q) ∈ g.finished number input p depth :=
      subset (mem_finished.mpr ⟨⟨start, bound⟩, α, rule, rfl, ends⟩)
    obtain ⟨-, α', rule', named, ends'⟩ := mem_finished.mp inside
    -- Both numbers name one rule, which the shallower run finishes; the deeper one then agrees with
    -- it.
    cases injective named
    have deeper {d : Nat} (le : depth ≤ d) := g.follows_runWithin le (.call rule)
      (onward_behind start bound)
    rw [(deeper le).eq_of_onward ends']
    exact deeper (Nat.le_refl _)

/-- A level of calls that finishes no further ones is followed by such a level. -/
theorem card_finished_succ (injective : Function.Injective number) (depth : Nat)
    (same : (g.finished number input p depth).card = (g.finished number input p (depth + 1)).card) :
    (g.finished number input p (depth + 1)).card =
      (g.finished number input p (depth + 2)).card := by
  have all := Finset.eq_of_subset_of_card_le (finished_mono (Nat.le_succ depth)) same.ge
  refine Nat.le_antisymm (Finset.card_le_card (finished_mono (Nat.le_succ _))) ?_
  refine Finset.card_le_card (finished_subset fun rule => ?_)
  exact follows_of_finished_subset injective (Nat.le_succ depth) all.ge (g.body rule)

/-- As many levels of calls as there are rules and places are enough. -/
theorem follows_of_counted (counted : g.Counted)
    (le : g.rules * ((input.drop p).length + 1) ≤ depth) (parser : Parser τ g.Rule α) :
    (onward input p).Follows (g.runWithin depth parser)
      (g.runWithin (g.rules * ((input.drop p).length + 1)) parser) := by
  obtain ⟨number, injective⟩ := counted
  have mono : Monotone fun depth => (g.finished number input p depth).card :=
    fun _ _ le => Finset.card_le_card (finished_mono le)
  have stable := Nat.stabilises_of_monotone mono card_finished_le (card_finished_succ injective) le
  have all := Finset.eq_of_subset_of_card_le (finished_mono le) stable.le
  exact follows_of_finished_subset injective le all.ge parser

/-- The outcomes of `Grammar.parse` are the endings of the parser. -/
theorem parse_eq_iff (counted : g.Counted) {parser : Parser τ g.Rule α} {ending : Ending α} :
    g.parse parser input p = ending.outcome input ↔ g.Ends input parser p ending := by
  constructor
  · exact fun same => ends_iff.mpr ⟨_, same⟩
  · intro ends
    obtain ⟨enough, same⟩ := Filter.eventually_atTop.mp (eventually_runWithin ends)
    have deep := same _ (Nat.le_max_left enough (g.rules * ((input.drop p).length + 1)))
    have follows := follows_of_counted counted (Nat.le_max_right enough _) parser
      (onward_behind (Nat.le_refl p) (Nat.le_max_left p input.length))
    rw [deep] at follows
    exact follows.eq_of_onward (ending.outcome_ne_endless input)

/-- `Grammar.parse` is endless only where the parser does not end. -/
theorem parse_endless_iff (counted : g.Counted) {parser : Parser τ g.Rule α} :
    g.parse parser input p = .endless ↔ ∀ ending, ¬ g.Ends input parser p ending := by
  constructor
  · intro stuck ending ends
    exact ending.outcome_ne_endless input (((parse_eq_iff counted).mpr ends).symm.trans stuck)
  · intro never
    have sound : g.Sound input
        (g.runWithin (g.rules * ((input.drop p).length + 1)) parser) parser :=
      sound_runWithin _ parser
    rcases sound p with stuck | ⟨ending, -, ends⟩
    · exact stuck
    · exact absurd ends (never ending)

end Grammar

end Trigger
