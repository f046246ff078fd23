import Trigger.Expr.Limits
import Trigger.Expr.Production
import Trigger.Token.Scan

/-!
# Reading an expression from a text

The tokens of the text must stay within the limits, and all significant ones together must form one
expression.  A `ParseFailure` is the first reason why they do not.
-/

namespace Trigger

/-- Why a text is no expression. -/
inductive ParseFailure where
  /-- A character belongs to no token. -/
  | scan (error : ScanError)
  | empty
  /-- Too many brackets and unary operators are open at the offset. -/
  | tooDeep (offset : Nat)
  /-- The binary operator at the offset is one too many. -/
  | tooManyOperators (offset : Nat)
  /-- The tokens do not start with an expression. -/
  | syntactic (error : ParseError)
  /-- A token is left behind the expression. -/
  | trailing (offset : Nat) (token : Token)
deriving DecidableEq

namespace ParseFailure

def message : ParseFailure → String
  | scan error => "Tokenize error: " ++ error.message
  | empty => "Empty expression"
  | tooDeep offset =>
    "Nesting deeper than " ++ Nat.repr Limits.nesting ++ " at " ++ Nat.repr offset
  | tooManyOperators offset =>
    "More than " ++ Nat.repr Limits.operators ++ " binary operators, the last at "
      ++ Nat.repr offset
  | syntactic error => "Syntax error: " ++ error.message
  | trailing offset token =>
    "Unexpected token at " ++ Nat.repr offset ++ ": " ++ String.ofList token.text

end ParseFailure

namespace Span

/-- The offset where the span with the given index starts. -/
def offsetAt (spans : List Span) (index : Nat) : Nat :=
  (spans[index]?.map (·.start.offset)).getD 0

/-- The significant tokens of a text that stays within the limits. -/
def significantOfText (cs : List Char) : Except ParseFailure (List Span) :=
  match Token.ofText cs with
  | .error e => .error (.scan e)
  | .ok all =>
    let spans := significant all
    if spans.isEmpty then .error .empty
    else
      match Limits.excess? (spans.map (·.token)) with
      | none => .ok spans
      | some (.nesting index) => .error (.tooDeep (offsetAt spans index))
      | some (.operators index) => .error (.tooManyOperators (offsetAt spans index))

end Span

/-- The expression that a text writes. -/
def Expr.ofText (cs : List Char) : Except ParseFailure Expr :=
  match Span.significantOfText cs with
  | .error e => .error e
  | .ok spans =>
    match Expr.parse (spans.map (·.token)) 0 with
    | .success expr next =>
      match spans[next.position]? with
      | some span => .error (.trailing span.start.offset span.token)
      | none => .ok expr
    | .failure error => .error (.syntactic error)
    | .endless => .error (.syntactic .noAlternative)

end Trigger
