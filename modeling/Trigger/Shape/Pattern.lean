import Trigger.Shape.Basic
import Trigger.Token.Lexeme

/-!
# Patterns of text

A pattern is a list of pieces.  A text matches it if it consists of these pieces in order, with any
blanks around and between them.  Orderings and numbers are captured.

The leaves of the catalog of shapes are given by patterns.  Each of them is a form of expression, so
the pieces are texts of tokens.
-/

namespace Trigger

/-- A piece of a pattern. -/
inductive Piece where
  | text (cs : List Char)
  /-- The operator of an access, optional or not. -/
  | access
  /-- One of the given operators, which is captured.  No operator may begin a later one. -/
  | ordering (ops : List BinaryOp)
  /-- A number, which is captured. -/
  | number

/-- What a match captures. -/
structure Captures where
  ops : List BinaryOp
  numbers : List Float

namespace Captures

def empty : Captures := ⟨[], []⟩

def withOp (c : Captures) (op : BinaryOp) : Captures := { c with ops := op :: c.ops }

def withNumber (c : Captures) (n : Float) : Captures := { c with numbers := n :: c.numbers }

end Captures

/-- A list of pieces with blanks allowed around and between them. -/
abbrev Pattern := List Piece

namespace Pattern

/-- The first of the operators whose text a text starts with, and the rest. -/
def opInFront? (ops : List BinaryOp) (cs : List Char) : Option (BinaryOp × List Char) :=
  ops.findSome? fun op => (op.symbol.text.isPrefixOf? cs).map fun rest => (op, rest)

/-- The number that a text starts with, and the rest. -/
def numberInFront? (cs : List Char) : Option (Float × List Char) :=
  (Lexeme.digits? cs).map fun (whole, fraction, rest) => (Number.ofFixed whole fraction 0, rest)

/-- What a pattern captures of a text, if the text matches. -/
def captures? : Pattern → List Char → Option Captures
  | [], cs => if (Text.trimStart cs).isEmpty then some .empty else none
  | .text expected :: pieces, cs =>
    (expected.isPrefixOf? (Text.trimStart cs)).bind (captures? pieces)
  | .access :: pieces, cs =>
    let cs := Text.trimStart cs
    match Operator.optionalDot.text.isPrefixOf? cs with
    | some rest => captures? pieces rest
    | none => (Operator.dot.text.isPrefixOf? cs).bind (captures? pieces)
  | .ordering ops :: pieces, cs =>
    (opInFront? ops (Text.trimStart cs)).bind fun (op, rest) =>
      (captures? pieces rest).map (·.withOp op)
  | .number :: pieces, cs =>
    (numberInFront? (Text.trimStart cs)).bind fun (n, rest) =>
      (captures? pieces rest).map (·.withNumber n)

/-! ## The patterns of the catalog -/

def word (s : String) : Piece := .text s.toList

/-- The ordering operators, those of two characters first. -/
def orderings : List BinaryOp := [.lessEqual, .greaterEqual, .less, .greater]

def health : Pattern := [word "self", word ".", word "hp"]

def fullHealth : Pattern := [word "self", word ".", word "maxHp"]

def enemyDistance : Pattern :=
  [word "distance", word "(", word "closest", word ".", word "enemy", word "(", word ")", .access,
   word "pos", word ")"]

def truth (word : Keyword) : Pattern := [.text word.text]

/-- The health of the subject against a number. -/
def healthThreshold : Pattern := health ++ [.ordering orderings, .number]

/-- The health of the subject against a fraction of its full health. -/
def healthFraction : Pattern :=
  health ++ [.ordering orderings] ++ fullHealth ++ [word "*", .number]

/-- The distance to the closest enemy against a number. -/
def distanceThreshold : Pattern := enemyDistance ++ [.ordering orderings, .number]

/-- The distance to the closest enemy above one number and below another. -/
def distanceRange : Pattern :=
  enemyDistance ++ [.ordering [.greaterEqual, .greater], .number, word "&&"]
    ++ enemyDistance ++ [.ordering [.lessEqual, .less], .number]

end Pattern

end Trigger
