import Trigger.Expr.Operator

/-!
# Expressions

The tree of a trigger expression.  A chain is a base with the links behind it: members, method calls
and indices.  A link with `?.` is optional.
-/

namespace Trigger

/-- A value written in an expression. -/
inductive Literal where
  | number (value : Float)
  | string (contents : String)
  | boolean (value : Bool)
  | null
  | absent
deriving DecidableEq

/-- The literal that a reserved word writes. -/
def Keyword.literal : Keyword → Literal
  | true => .boolean .true
  | false => .boolean .false
  | null => .null
  | undefined => .absent

mutual

/-- A trigger expression. -/
inductive Expr where
  /-- A written value. -/
  | literal (value : Literal)
  /-- A name of the context or of the subject. -/
  | name (word : String)
  /-- A list of values. -/
  | array (items : List Expr)
  /-- Values under keys. -/
  | object (entries : List (String × Expr))
  | call (function : String) (arguments : List Expr)
  /-- Links behind a base. -/
  | chain (base : Expr) (links : List Link)
  | unary (op : UnaryOp) (operand : Expr)
  | binary (op : BinaryOp) (left right : Expr)

/-- A step from a value to a part of it. -/
inductive Link where
  | member (name : String) (optional : Bool)
  | method (name : String) (arguments : List Expr) (optional : Bool)
  /-- The part under a key. -/
  | index (key : Expr)

end

namespace Link

/-- Whether the link stops at a missing value. -/
def isOptional : Link → Bool
  | member _ optional | method _ _ optional => optional
  | index _ => false

end Link

namespace Expr

/-- Links behind a base, where no links are the base itself. -/
def linked (base : Expr) : List Link → Expr
  | [] => base
  | link :: links => chain base (link :: links)

mutual

/-- The number of nodes of an expression.  A chain has none of its own. -/
def size : Expr → Nat
  | literal _ | name _ => 1
  | array items => 1 + sizeAll items
  | object entries => 1 + sizeEntries entries
  | call _ arguments => 1 + sizeAll arguments
  | chain base links => base.size + sizeLinks links
  | unary _ operand => 1 + operand.size
  | binary _ left right => 1 + left.size + right.size
termination_by structural x => x

def sizeAll : List Expr → Nat
  | [] => 0
  | e :: es => e.size + sizeAll es
termination_by structural x => x

/-- The number of nodes of the values under keys. -/
def sizeEntries : List (String × Expr) → Nat
  | [] => 0
  | (_, e) :: entries => e.size + sizeEntries entries
termination_by structural x => x

def sizeLinks : List Link → Nat
  | [] => 0
  | link :: links => sizeLink link + sizeLinks links
termination_by structural x => x

def sizeLink : Link → Nat
  | .member _ _ => 1
  | .method _ arguments _ => 1 + sizeAll arguments
  | .index key => 1 + key.size
termination_by structural x => x

end

mutual

/-- Whether two expressions are the same tree. -/
def same : Expr → Expr → Bool
  | literal a, literal b => a = b
  | name a, name b => a = b
  | array a, array b => sameAll a b
  | object a, object b => sameEntries a b
  | call f a, call g b => f = g && sameAll a b
  | chain a k, chain b l => same a b && sameLinks k l
  | unary o a, unary p b => o = p && same a b
  | binary o a b, binary p c d => o = p && same a c && same b d
  | _, _ => false
termination_by structural x => x

def sameAll : List Expr → List Expr → Bool
  | [], [] => true
  | a :: as, b :: bs => same a b && sameAll as bs
  | _, _ => false
termination_by structural x => x

/-- Whether two lists of values under keys are the same. -/
def sameEntries : List (String × Expr) → List (String × Expr) → Bool
  | [], [] => true
  | (k, a) :: as, (l, b) :: bs => k = l && same a b && sameEntries as bs
  | _, _ => false
termination_by structural x => x

def sameLinks : List Link → List Link → Bool
  | [], [] => true
  | a :: as, b :: bs => sameLink a b && sameLinks as bs
  | _, _ => false
termination_by structural x => x

def sameLink : Link → Link → Bool
  | .member n o, .member m p => n = m && o = p
  | .method n a o, .method m b p => n = m && sameAll a b && o = p
  | .index a, .index b => same a b
  | _, _ => false
termination_by structural x => x

end

end Expr

end Trigger
