import Trigger.Expr.Basic
import Trigger.Number.Notation
import Trigger.Text.Quoted

/-!
# Canonical text

The canonical text of an expression shows its structure: every unary and every binary operator
stands in parentheses of its own.  Items and arguments are separated by a comma and a space, strings
are quoted, and keys are written as they are.
-/

namespace Trigger

def Literal.text : Literal → List Char
  | number value => Number.write .plain value
  | string contents => Text.quoted contents.toList
  | boolean true => Keyword.true.text
  | boolean false => Keyword.false.text
  | null => Keyword.null.text
  | absent => Keyword.undefined.text

/-- The operator that introduces an access. -/
def Link.accessText (optional : Bool) : List Char :=
  if optional then Operator.optionalDot.text else Operator.dot.text

namespace Expr

mutual

/-- The canonical text of an expression. -/
def canonical : Expr → List Char
  | literal value => value.text
  | name word => word.toList
  | array items => '[' :: (canonicalAll items ++ [']'])
  | object entries => '\x7b' :: (canonicalEntries entries ++ ['\x7d'])
  | call function arguments => function.toList ++ '(' :: (canonicalAll arguments ++ [')'])
  | chain base links => base.canonical ++ canonicalLinks links
  | unary op operand => '(' :: (op.symbol.text ++ operand.canonical ++ [')'])
  | binary op left right =>
    '(' :: (left.canonical ++ ' ' :: op.symbol.text ++ ' ' :: right.canonical ++ [')'])
termination_by structural x => x

/-- The canonical texts of several expressions, separated. -/
def canonicalAll : List Expr → List Char
  | [] => []
  | [e] => e.canonical
  | e :: es => e.canonical ++ ',' :: ' ' :: canonicalAll es
termination_by structural x => x

/-- The canonical texts of values under keys, separated. -/
def canonicalEntries : List (String × Expr) → List Char
  | [] => []
  | [(key, e)] => key.toList ++ ':' :: ' ' :: e.canonical
  | (key, e) :: entries =>
    key.toList ++ ':' :: ' ' :: e.canonical ++ ',' :: ' ' :: canonicalEntries entries
termination_by structural x => x

def canonicalLinks : List Link → List Char
  | [] => []
  | link :: links => canonicalLink link ++ canonicalLinks links
termination_by structural x => x

def canonicalLink : Link → List Char
  | .member word optional => Link.accessText optional ++ word.toList
  | .method word arguments optional =>
    Link.accessText optional ++ word.toList ++ '(' :: (canonicalAll arguments ++ [')'])
  | .index key => '[' :: (key.canonical ++ [']'])
termination_by structural x => x

end

end Expr

end Trigger
