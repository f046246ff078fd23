import Trigger.Cache.Memo
import Trigger.Expr.OfText

/-!
# The registry of parsed texts

A registry parses a text once and keeps the outcome.  A failure is kept only if the registry is set
to keep failures.  Every parse gets a number of its own, so that it can be told whether two outcomes
are the same one.
-/

namespace Trigger

/-- The outcome of one parse. -/
structure Parsed where
  /-- The number of the parse. -/
  serial : Nat
  outcome : Except ParseFailure Expr

namespace Parsed

/-- Whether the text was an expression. -/
def isExpr (p : Parsed) : Bool :=
  match p.outcome with
  | .ok _ => true
  | .error _ => false

end Parsed

/-- A parser with a memory. -/
structure Registry where
  /-- Whether failures are kept. -/
  keepsFailures : Bool
  /-- The outcomes that are kept. -/
  known : Memo Parsed
  /-- How many parses there have been. -/
  minted : Nat

namespace Registry

def empty (keepsFailures : Bool) : Registry := ⟨keepsFailures, .empty, 0⟩

/-- The outcome of parsing a text, and the registry behind it. -/
def parse (r : Registry) (text : String) : Parsed × Registry :=
  match r.known.find? text with
  | some p => (p, r)
  | none =>
    let p : Parsed := ⟨r.minted, Expr.ofText text.toList⟩
    let r := { r with minted := r.minted + 1 }
    if p.isExpr || r.keepsFailures then (p, { r with known := r.known.insert text p }) else (p, r)

def contains (r : Registry) (text : String) : Bool := r.known.contains text

def size (r : Registry) : Nat := r.known.size

/-- The registry without the outcomes it kept. -/
def clear (r : Registry) : Registry := { r with known := .empty }

end Registry

end Trigger
