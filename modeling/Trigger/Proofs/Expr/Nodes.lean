import Trigger.Expr.Basic

/-!
# The nodes of an expression

The expressions that an expression is made of, with itself in front of those inside it.  Whatever is
said of all literals, keys or names of an expression is said of its nodes.

The names of an expression are those that evaluation may look up: its names and the functions that
it calls.  The name of a member or of a method is none of them.
-/

namespace Trigger.Expr

mutual

/-- The expression and all expressions inside it, from left to right. -/
def nodes : Expr → List Expr
  | literal value => [literal value]
  | name word => [name word]
  | array items => array items :: nodesAll items
  | object entries => object entries :: nodesEntries entries
  | call function arguments => call function arguments :: nodesAll arguments
  | chain base links => chain base links :: (base.nodes ++ nodesLinks links)
  | unary op operand => unary op operand :: operand.nodes
  | binary op left right => binary op left right :: (left.nodes ++ right.nodes)
termination_by structural x => x

def nodesAll : List Expr → List Expr
  | [] => []
  | e :: es => e.nodes ++ nodesAll es
termination_by structural x => x

/-- The nodes of the values under keys. -/
def nodesEntries : List (String × Expr) → List Expr
  | [] => []
  | (_, e) :: entries => e.nodes ++ nodesEntries entries
termination_by structural x => x

def nodesLinks : List Link → List Expr
  | [] => []
  | link :: links => nodesLink link ++ nodesLinks links
termination_by structural x => x

def nodesLink : Link → List Expr
  | .member _ _ => []
  | .method _ arguments _ => nodesAll arguments
  | .index key => key.nodes
termination_by structural x => x

end

theorem mem_nodes_self (e : Expr) : e ∈ e.nodes := by
  cases e <;> simp [nodes]

theorem nodesAll_eq (es : List Expr) : nodesAll es = es.flatMap nodes := by
  induction es with
  | nil => rfl
  | cons e es ih => rw [nodesAll, ih, List.flatMap_cons]

theorem nodesEntries_eq (entries : List (String × Expr)) :
    nodesEntries entries = entries.flatMap (·.2.nodes) := by
  induction entries with
  | nil => rfl
  | cons entry entries ih => rw [nodesEntries, ih, List.flatMap_cons]

/-- The nodes of the base and of the links are nodes of the expression that they make. -/
theorem nodes_linked_subset (base : Expr) (links : List Link) :
    base.nodes ++ nodesLinks links ⊆ (base.linked links).nodes := by
  cases links with
  | nil => simp [linked, nodesLinks]
  | cons link links => exact List.subset_cons_self _ _

/-! ## Names -/

/-- The name that the node itself looks up. -/
def looksUp? : Expr → Option String
  | name word => some word
  | call function _ => some function
  | _ => none

/-- The names among nodes, from left to right. -/
def namesIn (es : List Expr) : List String := es.filterMap looksUp?

/-- The names that an expression looks up, from left to right. -/
def names (e : Expr) : List String := namesIn e.nodes

@[simp] theorem namesIn_append (es fs : List Expr) :
    namesIn (es ++ fs) = namesIn es ++ namesIn fs := List.filterMap_append

@[simp] theorem names_literal (value : Literal) : (literal value).names = [] := rfl

@[simp] theorem names_name (word : String) : (name word).names = [word] := rfl

@[simp] theorem names_array (items : List Expr) :
    (array items).names = namesIn (nodesAll items) := rfl

@[simp] theorem names_object (entries : List (String × Expr)) :
    (object entries).names = namesIn (nodesEntries entries) := rfl

@[simp] theorem names_call (function : String) (arguments : List Expr) :
    (call function arguments).names = function :: namesIn (nodesAll arguments) := rfl

@[simp] theorem names_chain (base : Expr) (links : List Link) :
    (chain base links).names = base.names ++ namesIn (nodesLinks links) :=
  namesIn_append base.nodes _

@[simp] theorem names_unary (op : UnaryOp) (operand : Expr) :
    (unary op operand).names = operand.names := rfl

@[simp] theorem names_binary (op : BinaryOp) (left right : Expr) :
    (binary op left right).names = left.names ++ right.names :=
  namesIn_append left.nodes _

@[simp] theorem namesIn_nodesAll_cons (e : Expr) (es : List Expr) :
    namesIn (nodesAll (e :: es)) = e.names ++ namesIn (nodesAll es) :=
  namesIn_append e.nodes _

@[simp] theorem namesIn_nodesEntries_cons (key : String) (e : Expr)
    (entries : List (String × Expr)) :
    namesIn (nodesEntries ((key, e) :: entries)) =
      e.names ++ namesIn (nodesEntries entries) :=
  namesIn_append e.nodes _

@[simp] theorem namesIn_nodesLinks_cons (link : Link) (links : List Link) :
    namesIn (nodesLinks (link :: links)) =
      namesIn (nodesLink link) ++ namesIn (nodesLinks links) :=
  namesIn_append (nodesLink link) _

@[simp] theorem namesIn_nodesLink_method (word : String) (arguments : List Expr)
    (optional : Bool) :
    namesIn (nodesLink (.method word arguments optional)) = namesIn (nodesAll arguments) := rfl

@[simp] theorem namesIn_nodesLink_index (key : Expr) :
    namesIn (nodesLink (.index key)) = key.names := rfl

end Trigger.Expr
