/-!
# What a parser run comes to

A parser reads a list of items from a cursor on.  A run ends with a value and the cursor behind what
it read, or it ends with an error, or it does not end.  The last case is an outcome of its own, so
that every run is a total function and no bound on its length is part of its answer.
-/

namespace Trigger

/-- A place in the input: how many items lie before it, and the items from there on. -/
structure Cursor (τ : Type) where
  /-- The number of items before it. -/
  position : Nat
  /-- The items from there on. -/
  rest : List τ

namespace Cursor

variable {τ : Type}

/-- The place behind the first `position` items of the input. -/
def behind (input : List τ) (position : Nat) : Cursor τ := ⟨position, input.drop position⟩

end Cursor

/-- Why a parser does not accept its input. -/
inductive ParseError where
  /-- The input ends where an item is needed. -/
  | endOfInput
  /-- No alternative accepts. -/
  | noAlternative
  /-- Another item stands where one was expected.  The place is counted from one. -/
  | unexpected (expected found : String) (place : Nat)
  /-- The item does not have the property asked for.  The place is counted from one. -/
  | unsatisfied (place : Nat)
  /-- An error inside a named part. -/
  | within (part : String) (inner : ParseError)
deriving DecidableEq, Repr

namespace ParseError

/-- The error without the parts it happened in. -/
def root : ParseError → ParseError
  | within _ inner => inner.root
  | e => e

def message : ParseError → String
  | endOfInput => "Unexpected EOF"
  | noAlternative => "No alternative"
  | unexpected expected found place =>
    "Fail: expected not matched: expected: " ++ expected ++ ", found: " ++ found
      ++ ", at " ++ Nat.repr place
  | unsatisfied place => "Fail: unsatisfied at " ++ Nat.repr place
  | within part inner => part ++ ": " ++ inner.message

end ParseError

/-- What a run comes to. -/
inductive Outcome (τ α : Type) where
  /-- The run ends with a value, and the cursor is behind what was read. -/
  | success (value : α) (next : Cursor τ)
  /-- The run ends with an error. -/
  | failure (error : ParseError)
  /-- The run does not end. -/
  | endless

namespace Outcome

variable {τ α β : Type}

/-- The outcome with a function applied to its value. -/
def map (f : α → β) : Outcome τ α → Outcome τ β
  | success value next => success (f value) next
  | failure error => failure error
  | endless => endless

/-- The outcome of going on with what was read. -/
def andThen : Outcome τ α → (α → Cursor τ → Outcome τ β) → Outcome τ β
  | success value next, go => go value next
  | failure error, _ => failure error
  | endless, _ => endless

/-- The outcome with the part named in its error. -/
def within (part : String) : Outcome τ α → Outcome τ α
  | failure error => failure (.within part error)
  | outcome => outcome

end Outcome

end Trigger
