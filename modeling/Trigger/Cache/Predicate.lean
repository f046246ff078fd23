import Trigger.Shape.OfText

/-!
# Predicates

A predicate is what a text has become: a shape, a tree that is evaluated with the subject under a
name, or nothing, for a text that is no expression.  A predicate of nothing is absent for every
subject.  A predicate has a number of its own, so that it can be told whether two are the same one.
-/

namespace Trigger

/-- How a text was compiled. -/
inductive Tier where
  /-- It was recognized by a form of the catalog. -/
  | specialized (form : Form)
  /-- It was parsed. -/
  | generic
deriving DecidableEq, Repr

namespace Tier

/-- The text that shows a tier. -/
def text : Tier → String
  | specialized form => "specialized: " ++ form.name
  | generic => "generic"

end Tier

/-- What a text has become. -/
inductive Plan where
  /-- A shape, and the form by which it was recognized. -/
  | shape (form : Form) (shape : Shape)
  | tree (expr : Expr) (subjectName : String)
  | nothing

namespace Plan

variable {s : Type}

def tier : Plan → Tier
  | shape form _ => .specialized form
  | tree _ _ => .generic
  | nothing => .generic

/-- The value for a subject, in a scope that does not know the subject. -/
def eval (scope : Scope s) (subject : Value) : Plan → StateM s Value
  | shape _ recognized => recognized.eval scope subject
  | tree expr subjectName => expr.eval (scope.bind subjectName subject)
  | nothing => pure .absent

end Plan

/-- A compiled text. -/
structure Predicate where
  /-- The number of the predicate. -/
  serial : Nat
  /-- What the text has become. -/
  plan : Plan

end Trigger
