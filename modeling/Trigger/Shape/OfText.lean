import Trigger.Expr.OfText
import Trigger.Shape.Pattern
import Trigger.Shape.Split

/-!
# Recognizing a shape

A text is recognized by the first form of the catalog that it has.  The leaves have patterns.  The
other forms are made of recognized texts: in parentheses, around the last `||` of the top level, or,
if there is none, around the last `&&`.  The texts inside are shorter, so the length of the text
bounds the depth.

A trigger is only specialized if its text also passes the limits of the parser.
-/

namespace Trigger

/-- The forms of the catalog, in the order in which they are tried. -/
inductive Form where
  | booleanLiteral | distanceRange | distanceThreshold | healthFraction | healthThreshold
  | parenthesized | disjunction | conjunction
deriving DecidableEq, Repr

namespace Form

def name : Form → String
  | booleanLiteral => "boolean literal"
  | distanceRange => "distance range"
  | distanceThreshold => "distance threshold"
  | healthFraction => "hp fraction"
  | healthThreshold => "hp threshold"
  | parenthesized => "parenthesized"
  | disjunction => "disjunction"
  | conjunction => "conjunction"

end Form

namespace Shape

def truth? (cs : List Char) : Option Shape :=
  if (Pattern.captures? (Pattern.truth .true) cs).isSome then some (.constant true)
  else if (Pattern.captures? (Pattern.truth .false) cs).isSome then some (.constant false)
  else none

def distanceRange? (cs : List Char) : Option Shape :=
  match Pattern.distanceRange.captures? cs with
  | some ⟨[above, below], [least, most]⟩ => some (.distanceRange ⟨above, least⟩ ⟨below, most⟩)
  | _ => none

def distance? (cs : List Char) : Option Shape :=
  match Pattern.distanceThreshold.captures? cs with
  | some ⟨[op], [limit]⟩ => some (.distance ⟨op, limit⟩)
  | _ => none

/-- The shape of a comparison of the health with a fraction of the full one. -/
def healthFraction? (cs : List Char) : Option Shape :=
  match Pattern.healthFraction.captures? cs with
  | some ⟨[op], [fraction]⟩ => some (.healthFraction op fraction)
  | _ => none

def health? (cs : List Char) : Option Shape :=
  match Pattern.healthThreshold.captures? cs with
  | some ⟨[op], [limit]⟩ => some (.health op limit)
  | _ => none

/-- The shape of a text that matches a pattern. -/
def leaf? (cs : List Char) : Option (Form × Shape) :=
  ((truth? cs).map (Form.booleanLiteral, ·))
    <|> ((distanceRange? cs).map (Form.distanceRange, ·))
    <|> ((distance? cs).map (Form.distanceThreshold, ·))
    <|> ((healthFraction? cs).map (Form.healthFraction, ·))
    <|> ((health? cs).map (Form.healthThreshold, ·))

/-- The shape of a text in parentheses, where the text inside is recognized as given. -/
def parenthesized? (inner : List Char → Option (Form × Shape)) (cs : List Char) :
    Option (Form × Shape) := do
  let (_, shape) ← inner (← Text.stripParens? cs)
  return (.parenthesized, shape)

/-- The shape of two texts around `||`. -/
def disjunction? (inner : List Char → Option (Form × Shape)) (cs : List Char) :
    Option (Form × Shape) := do
  let (left, right) ← Text.splitTopLevel? Operator.or.text cs
  let (_, left) ← inner left
  let (_, right) ← inner right
  return (.disjunction, .either left right)

/-- The shape of two texts around `&&`, where there is no `||` on the top level. -/
def conjunction? (inner : List Char → Option (Form × Shape)) (cs : List Char) :
    Option (Form × Shape) := do
  if (Text.splitTopLevel? Operator.or.text cs).isSome then none
  else
    let (left, right) ← Text.splitTopLevel? Operator.and.text cs
    let (_, left) ← inner left
    let (_, right) ← inner right
    return (.conjunction, .both left right)

/-- The shape of a text that is at most `depth` forms deep. -/
def ofTextWithin : Nat → List Char → Option (Form × Shape)
  | 0, _ => none
  | depth + 1, cs =>
    leaf? cs
      <|> parenthesized? (ofTextWithin depth) cs
      <|> disjunction? (ofTextWithin depth) cs
      <|> conjunction? (ofTextWithin depth) cs

/-- The shape of a text, and the form by which it is recognized. -/
def ofText? (cs : List Char) : Option (Form × Shape) := ofTextWithin (cs.length + 1) cs

/-- The shape of a text that passes the limits of the parser. -/
def specialize? (cs : List Char) : Option (Form × Shape) :=
  match Span.significantOfText cs with
  | .ok _ => ofText? cs
  | .error _ => none

end Shape

end Trigger
