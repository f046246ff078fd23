import Trigger.Parser.Outcome

/-!
# Parser runs

A run is a function from a cursor to an outcome.  The definitions here are the ways to put runs
together.

* `orElse` takes the second run when the first one fails.  What the first one read is forgotten.
* `optional` turns a failure into the answer that nothing was read.
* `many` repeats a run until it fails or reads nothing.
* `separated` repeats an item with separators between.  A separator behind the last item is read
  too.  The list may be empty.  A round that reads neither in its separator nor in its item comes
  back to where it was, so it goes on forever and the outcome is `endless`.

The two repetitions count the rounds that are left.  A round that goes on reads an item of the
input, so there are at most as many as the input has items.
-/

namespace Trigger

/-- Items that a message can name. -/
class Written (τ : Type) where
  /-- The text of an item in a message. -/
  written : τ → String

/-- A parser that runs from a cursor. -/
abbrev Run (τ α : Type) := Cursor τ → Outcome τ α

namespace Run

variable {τ α β γ δ : Type}

/-- Reads one item that is equal to the given one. -/
def equal [DecidableEq τ] [Written τ] (value : τ) : Run τ τ := fun c =>
  match c.rest with
  | [] => .failure .endOfInput
  | item :: rest =>
    if item = value then .success item ⟨c.position + 1, rest⟩
    else .failure (.unexpected (Written.written value) (Written.written item) (c.position + 1))

/-- Reads one item that has a reading. -/
def satisfy (read : τ → Option α) : Run τ α := fun c =>
  match c.rest with
  | [] => .failure .endOfInput
  | item :: rest =>
    match read item with
    | some value => .success value ⟨c.position + 1, rest⟩
    | none => .failure (.unsatisfied (c.position + 1))

/-- Accepts nothing. -/
def never : Run τ α := fun _ => .failure .noAlternative

/-- The first run, or the second one where the first one fails. -/
def orElse (first second : Run τ α) : Run τ α := fun c =>
  match first c with
  | .failure _ => second c
  | outcome => outcome

/-- The run with a function applied to its value. -/
def map (f : α → β) (run : Run τ α) : Run τ β := fun c => (run c).map f

/-- One run after the other, with both values. -/
def pair (first : Run τ α) (second : Run τ β) : Run τ (α × β) := fun c =>
  (first c).andThen fun a c => (second c).map fun b => (a, b)

/-- Three runs, one after the other. -/
def triple (first : Run τ α) (second : Run τ β) (third : Run τ γ) : Run τ (α × β × γ) :=
  pair first (pair second third)

/-- One run after the other, with the value of the second. -/
def preceded (first : Run τ α) (second : Run τ β) : Run τ β := fun c =>
  (first c).andThen fun _ c => second c

/-- Three runs, one after the other, with the value of the middle one. -/
def delimited (left : Run τ α) (middle : Run τ β) (right : Run τ γ) : Run τ β := fun c =>
  (left c).andThen fun _ c => (middle c).andThen fun b c => (right c).map fun _ => b

/-- The run, or nothing where it fails. -/
def optional (run : Run τ α) : Run τ (Option α) := fun c =>
  match run c with
  | .success value next => .success (some value) next
  | .failure _ => .success none c
  | .endless => .endless

/-- At most `rounds` repetitions of a run. -/
def manyWithin (run : Run τ α) : Nat → Run τ (List α)
  | 0, _ => .endless
  | rounds + 1, c =>
    match run c with
    | .success value next =>
      if c.position < next.position then (manyWithin run rounds next).map (value :: ·)
      else .success [] c
    | .failure _ => .success [] c
    | .endless => .endless

/-- Repetitions of a run until it fails or reads nothing. -/
def many (run : Run τ α) : Run τ (List α) := fun c => manyWithin run (c.rest.length + 1) c

/-- At most `rounds` further items, each behind a separator. -/
def separatedWithin (item : Run τ α) (separator : Run τ β) : Nat → Run τ (List α)
  | 0, _ => .endless
  | rounds + 1, c =>
    match separator c with
    | .success _ behind =>
      match item behind with
      | .success value next =>
        if c.position < next.position then
          (separatedWithin item separator rounds next).map (value :: ·)
        else .endless
      | .failure _ => .success [] behind
      | .endless => .endless
    | .failure _ => .success [] c
    | .endless => .endless

/-- Items with separators between them, and possibly one behind the last. -/
def separated (item : Run τ α) (separator : Run τ β) : Run τ (List α) := fun c =>
  match item c with
  | .success value next =>
    (separatedWithin item separator (next.rest.length + 1) next).map (value :: ·)
  | .failure _ => .success [] c
  | .endless => .endless

/-- The run, with its part named in its errors. -/
def within (part : String) (run : Run τ α) : Run τ α := fun c => (run c).within part

end Run

end Trigger
