import Trigger.Expr.Operator
import Trigger.Token.Basic

/-!
# Limits on an expression

The parser descends once for each bracket and each unary operator that is open, and each binary
operator adds a level to the tree.  Both are bounded before any token is parsed, by one pass over
the tokens.

The pass keeps the unary operators that wait for their operand.  An opening bracket puts them aside
until it is closed, so they count as open as long as it is.  An operator is unary where no operand
stands in front of it; the pass tells this from the token before.
-/

namespace Trigger

namespace Limits

/-- The deepest nesting of brackets and unary operators. -/
def nesting : Nat := 64

/-- The most binary operators. -/
def operators : Nat := 256

/-- What the pass knows in front of a token. -/
structure State where
  /-- The unary operators that were waiting in front of each open bracket, innermost first. -/
  held : List Nat
  /-- The unary operators that wait for their operand. -/
  waiting : Nat
  /-- The binary operators so far. -/
  binary : Nat
  /-- Whether the token before ends an operand. -/
  afterOperand : Bool
deriving DecidableEq, Repr

namespace State

def start : State := ⟨[], 0, 0, false⟩

/-- The brackets and unary operators that are open. -/
def depth (s : State) : Nat := s.held.length + s.held.foldr (· + ·) 0 + s.waiting

def next (s : State) : Token → State
  | .delimiter .openParen | .delimiter .openBracket | .delimiter .openBrace =>
    { s with held := s.waiting :: s.held, waiting := 0, afterOperand := false }
  | .delimiter .closeParen | .delimiter .closeBracket | .delimiter .closeBrace =>
    { s with held := s.held.tail, waiting := 0, afterOperand := true }
  | .delimiter .comma | .delimiter .colon => { s with waiting := 0, afterOperand := false }
  | .operator symbol =>
    if !s.afterOperand && symbol.unary?.isSome then { s with waiting := s.waiting + 1 }
    else
      { s with
        waiting := 0
        binary := if symbol.binary?.isSome then s.binary + 1 else s.binary
        afterOperand := false }
  | _ => { s with waiting := 0, afterOperand := true }

end State

/-- A limit that is broken, with the index of the token that breaks it. -/
inductive Excess where
  /-- More brackets and unary operators are open than may be. -/
  | nesting (index : Nat)
  /-- There are more binary operators than may be. -/
  | operators (index : Nat)
deriving DecidableEq, Repr

/-- The first limit that the tokens break, from a state and an index on. -/
def excessFrom? (s : State) (index : Nat) : List Token → Option Excess
  | [] => none
  | token :: tokens =>
    let s := s.next token
    if operators < s.binary then some (.operators index)
    else if nesting < s.depth then some (.nesting index)
    else excessFrom? s (index + 1) tokens

/-- The first limit that the tokens break. -/
def excess? (tokens : List Token) : Option Excess := excessFrom? .start 0 tokens

end Limits

end Trigger
