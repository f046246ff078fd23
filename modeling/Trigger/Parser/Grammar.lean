import Trigger.Parser.Run

/-!
# Parsers as data

A `Parser` describes how to read a value of its index from a list of items.  It is a tree of the
ways in `Run`, and its leaves may call the rules of a grammar.  A `Grammar` gives the body of each
rule, so parsers may be recursive.

A run of a grammar is bounded by the depth of its calls.  This bound is no limit on what is read.  A
run never goes back, so a rule that is called inside itself at the same place calls itself there
forever.  A run that ends therefore nests at most one call of each rule for each place, which is the
bound that `Grammar.parse` uses, and a deeper run is `endless`.
-/

namespace Trigger

/-- A parser of items `τ` that may call rules `ρ`.  The index is the type of what it reads. -/
inductive Parser (τ : Type) (ρ : Type → Type) : Type → Type 1 where
  /-- One item that is equal to the given one. -/
  | equal (value : τ) : Parser τ ρ τ
  /-- One item that has a reading. -/
  | satisfy {α : Type} (read : τ → Option α) : Parser τ ρ α
  /-- Nothing is accepted. -/
  | never {α : Type} : Parser τ ρ α
  /-- The first parser, or the second one where it fails. -/
  | orElse {α : Type} (first second : Parser τ ρ α) : Parser τ ρ α
  /-- A function applied to what is read. -/
  | map {α β : Type} (f : α → β) (parser : Parser τ ρ α) : Parser τ ρ β
  /-- Repetitions until the parser fails or reads nothing. -/
  | many {α : Type} (parser : Parser τ ρ α) : Parser τ ρ (List α)
  /-- Items with separators between them, and possibly one behind the last. -/
  | separated {α β : Type} (item : Parser τ ρ α) (separator : Parser τ ρ β) : Parser τ ρ (List α)
  /-- The parser, or nothing where it fails. -/
  | optional {α : Type} (parser : Parser τ ρ α) : Parser τ ρ (Option α)
  /-- Two parsers, one after the other. -/
  | pair {α β : Type} (first : Parser τ ρ α) (second : Parser τ ρ β) : Parser τ ρ (α × β)
  /-- Three parsers, one after the other. -/
  | triple {α β γ : Type} (first : Parser τ ρ α) (second : Parser τ ρ β) (third : Parser τ ρ γ) :
      Parser τ ρ (α × β × γ)
  /-- Two parsers, of which the second one gives the value. -/
  | preceded {α β : Type} (first : Parser τ ρ α) (second : Parser τ ρ β) : Parser τ ρ β
  /-- Three parsers, of which the middle one gives the value. -/
  | delimited {α β γ : Type} (left : Parser τ ρ α) (middle : Parser τ ρ β)
      (right : Parser τ ρ γ) : Parser τ ρ β
  /-- A part that is named in errors. -/
  | within {α : Type} (part : String) (parser : Parser τ ρ α) : Parser τ ρ α
  /-- The body of a rule. -/
  | call {α : Type} (rule : ρ α) : Parser τ ρ α

namespace Parser

variable {τ : Type} {ρ : Type → Type} {α : Type}

/-- The first of several parsers that accepts. -/
def choice (alternatives : List (Parser τ ρ α)) : Parser τ ρ α := alternatives.foldr .orElse .never

/-- The parser without its value. -/
def discard (parser : Parser τ ρ α) : Parser τ ρ Unit := parser.map fun _ => ()

/-- The run of a parser, where the runs of the rules are given. -/
def run [DecidableEq τ] [Written τ] (callRule : {α : Type} → ρ α → Run τ α) {α : Type} :
    Parser τ ρ α → Run τ α
  | equal value => Run.equal value
  | satisfy read => Run.satisfy read
  | never => Run.never
  | orElse first second => Run.orElse (first.run callRule) (second.run callRule)
  | map f parser => Run.map f (parser.run callRule)
  | many parser => Run.many (parser.run callRule)
  | separated item separator => Run.separated (item.run callRule) (separator.run callRule)
  | optional parser => Run.optional (parser.run callRule)
  | pair first second => Run.pair (first.run callRule) (second.run callRule)
  | triple first second third =>
    Run.triple (first.run callRule) (second.run callRule) (third.run callRule)
  | preceded first second => Run.preceded (first.run callRule) (second.run callRule)
  | delimited left middle right =>
    Run.delimited (left.run callRule) (middle.run callRule) (right.run callRule)
  | within part parser => Run.within part (parser.run callRule)
  | call rule => callRule rule

end Parser

/-- A family of rules that may call each other. -/
structure Grammar (τ : Type) where
  /-- The rules, each indexed by the type of what it reads. -/
  Rule : Type → Type
  /-- How many rules there are. -/
  rules : Nat
  /-- The body of each rule. -/
  body : {α : Type} → Rule α → Parser τ Rule α

namespace Grammar

variable {τ : Type} [DecidableEq τ] [Written τ]

/-- The run of a parser whose calls nest at most `depth` deep. -/
def runWithin (g : Grammar τ) : Nat → {α : Type} → Parser τ g.Rule α → Run τ α
  | 0, _, parser => parser.run fun _ _ => .endless
  | depth + 1, _, parser => parser.run fun rule => g.runWithin depth (g.body rule)

/-- The calls of a run nest as deep as the run itself. -/
theorem runWithin_eq (g : Grammar τ) (depth : Nat) {α : Type} (parser : Parser τ g.Rule α) :
    g.runWithin depth parser = parser.run fun rule => g.runWithin depth (.call rule) := by
  cases depth <;> rfl

/-- The outcome of a parser that starts behind the first `position` items of the input. -/
def parse (g : Grammar τ) {α : Type} (parser : Parser τ g.Rule α) (input : List τ)
    (position : Nat) : Outcome τ α :=
  g.runWithin (g.rules * ((input.drop position).length + 1)) parser (.behind input position)

end Grammar

end Trigger
