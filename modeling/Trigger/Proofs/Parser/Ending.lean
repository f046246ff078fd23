import Trigger.Parser.Grammar

/-!
# Parsers that end

A parser that ends at a place of an input comes to an `Ending`: a value and the place behind what it
read, or an error.  `Grammar.Ends` gives the endings of each parser, one rule for each way to end.
It sees the whole input and looks its items up by their places, and it knows no bound: a repetition
that does not stop and a rule that always calls itself have no ending.

An ending lies between the place where the parser starts and the end of the input (`Ends.inside`).
-/

namespace Trigger

/-- What a parser that ends comes to. -/
inductive Ending (α : Type) where
  /-- A value is read up to a place. -/
  | success (value : α) (place : Nat)
  /-- Nothing is accepted. -/
  | failure (error : ParseError)

namespace Ending

variable {τ α β : Type}

/-- The ending with a function applied to its value. -/
def map (f : α → β) : Ending α → Ending β
  | success value place => success (f value) place
  | failure error => failure error

/-- The ending with the part named in its error. -/
def within (part : String) : Ending α → Ending α
  | failure error => failure (.within part error)
  | ending => ending

/-- The outcome of a run over an input. -/
def outcome (input : List τ) : Ending α → Outcome τ α
  | success value place => .success value (.behind input place)
  | failure error => .failure error

/-- What is read lies between a place and the end of an input of the given length. -/
def Inside (place length : Nat) : Ending α → Prop
  | success _ q => place ≤ q ∧ q ≤ max place length
  | failure _ => True

theorem outcome_map (input : List τ) (f : α → β) (ending : Ending α) :
    (ending.map f).outcome input = (ending.outcome input).map f := by
  cases ending <;> rfl

theorem outcome_within (input : List τ) (part : String) (ending : Ending α) :
    (ending.within part).outcome input = (ending.outcome input).within part := by
  cases ending <;> rfl

theorem outcome_ne_endless (input : List τ) (ending : Ending α) :
    ending.outcome input ≠ .endless := by
  cases ending <;> nofun

theorem outcome_injective (input : List τ) :
    Function.Injective (outcome input : Ending α → Outcome τ α) := by
  intro e f same
  cases e <;> cases f <;> cases same <;> rfl

theorem inside_map {f : α → β} {ending : Ending α} {place length : Nat} :
    (ending.map f).Inside place length ↔ ending.Inside place length := by
  cases ending <;> rfl

theorem inside_within {part : String} {ending : Ending α} {place length : Nat} :
    (ending.within part).Inside place length ↔ ending.Inside place length := by
  cases ending <;> rfl

/-- What is read behind a place that lies inside is inside, too. -/
theorem Inside.behind {ending : Ending α} {p q length : Nat} (le : p ≤ q) (bound : q ≤ max p length)
    (inside : ending.Inside q length) : ending.Inside p length := by
  cases ending with
  | success _ r =>
      obtain ⟨le', bound'⟩ := inside
      exact ⟨Nat.le_trans le le', by omega⟩
  | failure _ => trivial

end Ending

namespace Grammar

variable {τ : Type} [Written τ]

/-- A parser ends at a place of the input. -/
inductive Ends (g : Grammar τ) (input : List τ) :
    {α : Type} → Parser τ g.Rule α → Nat → Ending α → Prop
  | equal : input[p]? = some value → Ends g input (.equal value) p (.success value (p + 1))
  | other : input[p]? = some item → item ≠ value →
      Ends g input (.equal value) p
        (.failure (.unexpected (Written.written value) (Written.written item) (p + 1)))
  | equalBehind : input[p]? = none → Ends g input (.equal value) p (.failure .endOfInput)
  | satisfied {read : τ → Option α} : input[p]? = some item → read item = some value →
      Ends g input (.satisfy read) p (.success value (p + 1))
  | unsatisfied {read : τ → Option α} : input[p]? = some item → read item = none →
      Ends g input (.satisfy read) p (.failure (.unsatisfied (p + 1)))
  | satisfyBehind {read : τ → Option α} : input[p]? = none →
      Ends g input (.satisfy read) p (.failure .endOfInput)
  | never : Ends g input .never p (.failure .noAlternative)
  | first : Ends g input first p (.success value q) →
      Ends g input (.orElse first second) p (.success value q)
  | second : Ends g input first p (.failure e) → Ends g input second p ending →
      Ends g input (.orElse first second) p ending
  | map : Ends g input parser p ending → Ends g input (.map f parser) p (ending.map f)
  | more : Ends g input parser p (.success value q) → p < q →
      Ends g input (.many parser) q (.success values r) →
      Ends g input (.many parser) p (.success (value :: values) r)
  | idle : Ends g input parser p (.success value q) → ¬ p < q →
      Ends g input (.many parser) p (.success [] p)
  | noMore : Ends g input parser p (.failure e) → Ends g input (.many parser) p (.success [] p)
  | noItem : Ends g input item p (.failure e) →
      Ends g input (.separated item separator) p (.success [] p)
  | lastItem : Ends g input item p (.success value q) → Ends g input separator q (.failure e) →
      Ends g input (.separated item separator) p (.success [value] q)
  /-- Behind a separator the list goes on like one that starts there. -/
  | nextItem : Ends g input item p (.success value q) → Ends g input separator q (.success mark m) →
      Ends g input (.separated item separator) m (.success values r) →
      Ends g input (.separated item separator) p (.success (value :: values) r)
  | present : Ends g input parser p (.success value q) →
      Ends g input (.optional parser) p (.success (some value) q)
  | missing : Ends g input parser p (.failure e) →
      Ends g input (.optional parser) p (.success none p)
  | pair {first : Parser τ g.Rule α} {second : Parser τ g.Rule β} :
      Ends g input first p (.success a q) → Ends g input second q ending →
      Ends g input (.pair first second) p (ending.map fun b => (a, b))
  | noPair : Ends g input first p (.failure e) → Ends g input (.pair first second) p (.failure e)
  | triple : Ends g input (.pair first (.pair second third)) p ending →
      Ends g input (.triple first second third) p ending
  | preceded {first : Parser τ g.Rule α} {second : Parser τ g.Rule β} :
      Ends g input (.pair first second) p ending →
      Ends g input (.preceded first second) p (ending.map (·.2))
  | delimited {left : Parser τ g.Rule α} {middle : Parser τ g.Rule β}
      {right : Parser τ g.Rule γ} : Ends g input (.triple left middle right) p ending →
      Ends g input (.delimited left middle right) p (ending.map (·.2.1))
  | within : Ends g input parser p ending →
      Ends g input (.within part parser) p (ending.within part)
  | call : Ends g input (g.body rule) p ending → Ends g input (.call rule) p ending

/-! ## Places -/

theorem Ends.inside {g : Grammar τ} {input : List τ} {parser : Parser τ g.Rule α} {p : Nat}
    {ending : Ending α} (ends : g.Ends input parser p ending) : ending.Inside p input.length := by
  induction ends with
  | equal found | satisfied found _ =>
      have short := (List.getElem?_eq_some_iff.mp found).1
      exact ⟨Nat.le_succ _, by omega⟩
  | other | equalBehind | unsatisfied | satisfyBehind | never | noPair => trivial
  | idle | noMore | noItem | missing => exact ⟨Nat.le_refl _, Nat.le_max_left _ _⟩
  | first _ here | lastItem _ _ here _ | present _ here => exact here
  | second _ _ _ here | triple _ here | call _ here => exact here
  | map _ here | preceded _ here | delimited _ here => exact Ending.inside_map.mpr here
  | within _ here => exact Ending.inside_within.mpr here
  | more _ _ _ here behind => exact Ending.Inside.behind here.1 here.2 behind
  | pair _ _ here behind => exact (Ending.inside_map.mpr behind).behind here.1 here.2
  | nextItem _ _ _ here mark behind =>
      exact (Ending.Inside.behind mark.1 mark.2 behind).behind here.1 here.2

end Grammar

end Trigger
