import Trigger.Proofs.Expr.Exact
import Trigger.Proofs.Expr.Nodes

/-!
# The limits reject no more than they say

The limits are checked in one pass over the tokens, before there is any tree.  On the tokens of an
expression what the pass finds is in the tree: it takes an operator for a binary one where the tree
has a binary node, and where it finds too much open, as much is open in the derivation.

What is open in a derivation is given by `Depths`, which has the constructors of `Derives` and one
number for each token: a bracket is open from its opening token on up to the closing one, and a
unary operator from itself to the end of its operand.  So an operator waits longer in a derivation
than in the pass, which forgets it at the first token of its operand.  `Passes` is what the pass
does between two states, with the depths that it stays below, and `Depths.passed` follows it along a
derivation.  The invariant is that the pass enters an operand in a state that is not behind one and
leaves it in one that is, with the same brackets and with the binary operators of the operand
counted.
-/

namespace Trigger

namespace Expr

/-- Whether the node is a binary operator with its operands. -/
def isBinary : Expr → Bool
  | binary _ _ _ => true
  | _ => false

/-- The binary operators of an expression. -/
def operators (e : Expr) : Nat := e.nodes.countP isBinary

end Expr

/-- The nodes of what a phrase stands for. -/
def Phrase.nodes : (p : Phrase) → p.Value → List Expr
  | .expression, e | .binary _, e | .unary, e | .postfixed, e | .primary, e => e.nodes
  | .links, ls => Expr.nodesLinks ls
  | .link, l => Expr.nodesLink l
  | .entry, v => v.2.nodes
  | .list item, vs | .items item, vs => vs.flatMap item.nodes

/-- The binary operators of what a phrase stands for. -/
def Phrase.operators (p : Phrase) (v : p.Value) : Nat := (p.nodes v).countP Expr.isBinary

/-! ## What is open in a derivation -/

/-- The depths of tokens inside one more bracket or operand. -/
def deeper (ds : List Nat) : List Nat := ds.map (· + 1)

/-- The depths of tokens in brackets, given those of the tokens between them. -/
def bracketDepths (ds : List Nat) : List Nat := 1 :: (deeper ds ++ [0])

open Token (between)

/-- Tokens form a phrase and stand for a value, and at each token so many brackets and unary
operators of the phrase are open. -/
inductive Depths : (p : Phrase) → List Token → p.Value → List Nat → Prop
  | expression {u : List Token} {e : Expr} {ds : List Nat} :
      Depths (.binary Level.all) u e ds → Depths .expression u e ds
  | operand {u : List Token} {e : Expr} {ds : List Nat} :
      Depths .unary u e ds → Depths (.binary []) u e ds
  | tighter {level : Level} {levels : List Level} {u : List Token} {e : Expr} {ds : List Nat} :
      Depths (.binary levels) u e ds → Depths (.binary (level :: levels)) u e ds
  | join {level : Level} {levels : List Level} {op : BinaryOp} {u w : List Token} {e f : Expr}
      {ds fs : List Nat} :
      Depths (.binary (level :: levels)) u e ds → op.level = level →
      Depths (.binary levels) w f fs →
      Depths (.binary (level :: levels)) (u ++ .operator op.symbol :: w) (.binary op e f)
        (ds ++ 0 :: fs)
  | apply {op : UnaryOp} {u : List Token} {e : Expr} {ds : List Nat} :
      Depths .unary u e ds →
      Depths .unary (.operator op.symbol :: u) (.unary op e) (1 :: deeper ds)
  | bare {u : List Token} {e : Expr} {ds : List Nat} :
      Depths .postfixed u e ds → Depths .unary u e ds
  | postfixed {u w : List Token} {base : Expr} {links : List Link} {ds fs : List Nat} :
      Depths .primary u base ds → Depths .links w links fs →
      Depths .postfixed (u ++ w) (base.linked links) (ds ++ fs)
  | noLinks : Depths .links [] [] []
  | moreLinks {u w : List Token} {link : Link} {links : List Link} {ds fs : List Nat} :
      Depths .link u link ds → Depths .links w links fs →
      Depths .links (u ++ w) (link :: links) (ds ++ fs)
  | member {symbol : Operator} {optional : Bool} {word : String} :
      symbol.access? = some optional →
      Depths .link [.operator symbol, .name word] (.member word optional) [0, 0]
  | method {symbol : Operator} {optional : Bool} {word : String} {u : List Token}
      {arguments : List Expr} {ds : List Nat} :
      symbol.access? = some optional → Depths (.list .expression) u arguments ds →
      Depths .link (.operator symbol :: .name word :: between .openParen u .closeParen)
        (.method word arguments optional) (0 :: 0 :: bracketDepths ds)
  | index {u : List Token} {key : Expr} {ds : List Nat} :
      Depths .expression u key ds →
      Depths .link (between .openBracket u .closeBracket) (.index key) (bracketDepths ds)
  | parenthesized {u : List Token} {e : Expr} {ds : List Nat} :
      Depths .expression u e ds →
      Depths .primary (between .openParen u .closeParen) e (bracketDepths ds)
  | array {u : List Token} {items : List Expr} {ds : List Nat} :
      Depths (.list .expression) u items ds →
      Depths .primary (between .openBracket u .closeBracket) (.array items) (bracketDepths ds)
  | object {u : List Token} {entries : List (String × Expr)} {ds : List Nat} :
      Depths (.list .entry) u entries ds →
      Depths .primary (between .openBrace u .closeBrace) (.object entries) (bracketDepths ds)
  | literal {t : Token} {value : Literal} :
      t.literal? = some value → Depths .primary [t] (.literal value) [0]
  | call {word : String} {u : List Token} {arguments : List Expr} {ds : List Nat} :
      Depths (.list .expression) u arguments ds →
      Depths .primary (.name word :: between .openParen u .closeParen) (.call word arguments)
        (0 :: bracketDepths ds)
  | name {word : String} : Depths .primary [.name word] (.name word) [0]
  | entry {t : Token} {key : String} {u : List Token} {e : Expr} {ds : List Nat} :
      t.key? = some key → Depths .expression u e ds →
      Depths .entry (t :: .delimiter .colon :: u) (key, e) (0 :: 0 :: ds)
  | noItems {item : Phrase} : Depths (.list item) [] [] []
  | someItems {item : Phrase} {u : List Token} {vs : List item.Value} {ds : List Nat} :
      Depths (.items item) u vs ds → Depths (.list item) u vs ds
  | trailing {item : Phrase} {u : List Token} {vs : List item.Value} {ds : List Nat} :
      Depths (.items item) u vs ds →
      Depths (.list item) (u ++ [.delimiter .comma]) vs (ds ++ [0])
  | last {item : Phrase} {u : List Token} {v : item.Value} {ds : List Nat} :
      Depths item u v ds → Depths (.items item) u [v] ds
  | more {item : Phrase} {u w : List Token} {v : item.Value} {vs : List item.Value}
      {ds fs : List Nat} :
      Depths item u v ds → Depths (.items item) w vs fs →
      Depths (.items item) (u ++ .delimiter .comma :: w) (v :: vs) (ds ++ 0 :: fs)

/-- Each derivation has its depths. -/
theorem Derives.depths {p : Phrase} {u : List Token} {v : p.Value} (word : Derives p u v) :
    ∃ ds, Depths p u v ds := by
  induction word with
  | expression _ ih => exact ih.imp fun _ => .expression
  | operand _ ih => exact ih.imp fun _ => .operand
  | tighter _ ih => exact ih.imp fun _ => .tighter
  | join _ level _ ihl ihr =>
      obtain ⟨_, left⟩ := ihl
      obtain ⟨_, right⟩ := ihr
      exact ⟨_, .join left level right⟩
  | apply _ ih => exact ih.elim fun _ operand => ⟨_, .apply operand⟩
  | bare _ ih => exact ih.imp fun _ => .bare
  | postfixed _ _ ihb ihl =>
      obtain ⟨_, base⟩ := ihb
      obtain ⟨_, links⟩ := ihl
      exact ⟨_, .postfixed base links⟩
  | noLinks => exact ⟨_, .noLinks⟩
  | moreLinks _ _ ihh iht =>
      obtain ⟨_, head⟩ := ihh
      obtain ⟨_, tail⟩ := iht
      exact ⟨_, .moreLinks head tail⟩
  | member means => exact ⟨_, .member means⟩
  | method means _ ih => exact ih.elim fun _ list => ⟨_, .method means list⟩
  | index _ ih => exact ih.elim fun _ inner => ⟨_, .index inner⟩
  | parenthesized _ ih => exact ih.elim fun _ inner => ⟨_, .parenthesized inner⟩
  | array _ ih => exact ih.elim fun _ list => ⟨_, .array list⟩
  | object _ ih => exact ih.elim fun _ list => ⟨_, .object list⟩
  | literal writes => exact ⟨_, .literal writes⟩
  | call _ ih => exact ih.elim fun _ list => ⟨_, .call list⟩
  | name => exact ⟨_, .name⟩
  | entry writes _ ih => exact ih.elim fun _ value => ⟨_, .entry writes value⟩
  | noItems => exact ⟨_, .noItems⟩
  | someItems _ ih => exact ih.imp fun _ => .someItems
  | trailing _ ih => exact ih.elim fun _ items => ⟨_, .trailing items⟩
  | last _ ih => exact ih.imp fun _ => .last
  | more _ _ ihh iht =>
      obtain ⟨_, head⟩ := ihh
      obtain ⟨_, tail⟩ := iht
      exact ⟨_, .more head tail⟩

/-! ## The pass -/

namespace Limits

namespace State

/-- The state inside a bracket. -/
def opened (s : State) : State := ⟨s.waiting :: s.held, 0, s.binary, false⟩

/-- From the one state to the other the pass goes over the tokens, and behind each of them it has no
more open than the depth of the token above `base`. -/
inductive Passes (base : Nat) : State → List Token → List Nat → State → Prop
  | nil {s : State} : Passes base s [] [] s
  | cons {s s' : State} {t : Token} {u : List Token} {d : Nat} {ds : List Nat} :
      (s.next t).depth ≤ base + d → Passes base (s.next t) u ds s' →
      Passes base s (t :: u) (d :: ds) s'

namespace Passes

variable {base : Nat} {s s' s'' : State} {t : Token} {u w : List Token} {d : Nat}
  {ds fs : List Nat}

theorem append (first : Passes base s u ds s') (second : Passes base s' w fs s'') :
    Passes base s (u ++ w) (ds ++ fs) s'' := by
  induction first with
  | nil => exact second
  | cons shallow _ ih => exact .cons shallow (ih second)

theorem mono {base' : Nat} (le : base ≤ base') (passes : Passes base s u ds s') :
    Passes base' s u ds s' := by
  induction passes with
  | nil => exact .nil
  | cons shallow _ ih => exact .cons (Nat.le_trans shallow (Nat.add_le_add_right le _)) ih

/-- What is above one more than `base` is one deeper above `base`. -/
theorem deeper (passes : Passes (base + 1) s u ds s') : Passes base s u (deeper ds) s' := by
  induction passes with
  | nil => exact .nil
  | @cons s _ t _ d _ shallow _ ih =>
      refine .cons ?_ ih
      calc (s.next t).depth
        _ ≤ base + 1 + d := shallow
        _ = base + (d + 1) := by omega

theorem length_eq (passes : Passes base s u ds s') : ds.length = u.length := by
  induction passes with
  | nil => rfl
  | cons _ _ ih => rw [List.length_cons, List.length_cons, ih]

/-- A token and what stands behind it. -/
theorem step (steps : s.next t = s') (shallow : s'.depth ≤ base + d)
    (rest : Passes base s' u ds s'') : Passes base s (t :: u) (d :: ds) s'' :=
  .cons (steps ▸ shallow) (steps ▸ rest)

/-- A single token. -/
theorem single (steps : s.next t = s') (shallow : s'.depth ≤ base + d) :
    Passes base s [t] [d] s' :=
  .step steps shallow .nil

end Passes

/-! ### What a token changes -/

section
variable {held : List Nat} {waiting binary : Nat}

/-- No more is open when nothing waits. -/
theorem depth_drop_le (binary' : Nat) (after after' : Bool) :
    depth ⟨held, 0, binary, after⟩ ≤ depth ⟨held, waiting, binary', after'⟩ := by
  simp [depth]

@[simp] theorem depth_opened (s : State) : s.opened.depth = s.depth + 1 := by
  simp only [depth, opened, List.length_cons, List.foldr_cons]
  omega

theorem next_binary (op : BinaryOp) :
    next ⟨held, waiting, binary, true⟩ (.operator op.symbol) = ⟨held, 0, binary + 1, false⟩ := by
  cases op <;> rfl

theorem next_unary (op : UnaryOp) :
    next ⟨held, waiting, binary, false⟩ (.operator op.symbol) =
      ⟨held, waiting + 1, binary, false⟩ := by
  cases op <;> rfl

theorem next_access {symbol : Operator} {optional : Bool} (means : symbol.access? = some optional) :
    next ⟨held, waiting, binary, true⟩ (.operator symbol) = ⟨held, 0, binary, false⟩ := by
  cases symbol <;> first | rfl | cases means

theorem next_literal {s : State} {t : Token} {value : Literal} (writes : t.literal? = some value) :
    s.next t = ⟨s.held, 0, s.binary, true⟩ := by
  cases t <;> first | rfl | cases writes

theorem next_key {s : State} {t : Token} {key : String} (writes : t.key? = some key) :
    s.next t = ⟨s.held, 0, s.binary, true⟩ := by
  cases t <;> first | rfl | cases writes

end

theorem binary_le_next (s : State) (t : Token) : s.binary ≤ (s.next t).binary := by
  unfold next
  repeat' split
  all_goals
    first | exact Nat.le_refl _ | exact Nat.le_succ _

/-- Brackets around what leads back to the brackets that were open. -/
theorem Passes.between {s : State} {u : List Token} {ds : List Nat} {binary : Nat} {after : Bool}
    (left right : Delimiter)
    (inner : Passes s.opened.depth s.opened u ds ⟨s.waiting :: s.held, 0, binary, after⟩)
    (opens : s.next (.delimiter left) = s.opened)
    (closes : ∀ s' : State, s'.next (.delimiter right) = ⟨s'.held.tail, 0, s'.binary, true⟩) :
    Passes s.depth s (between left u right) (bracketDepths ds) ⟨s.held, 0, binary, true⟩ := by
  rw [depth_opened] at inner
  have closing : Passes s.depth ⟨s.waiting :: s.held, 0, binary, after⟩ [.delimiter right] [0]
      ⟨s.held, 0, binary, true⟩ :=
    .single (closes _) (by simp [depth])
  exact .step opens (Nat.le_of_eq (depth_opened s)) (inner.deeper.append closing)

end State

open State

/-! ### What the pass finds -/

section
variable {base : Nat} {s s' : State} {u : List Token} {ds : List Nat}

theorem binary_le_of_passes (passes : Passes base s u ds s') : s.binary ≤ s'.binary := by
  induction passes with
  | nil => exact Nat.le_refl _
  | cons _ _ ih => exact Nat.le_trans (binary_le_next _ _) ih

theorem operators_of_no_excess (passes : Passes base s u ds s') (few : s.binary ≤ operators)
    {i : Nat} (none : excessFrom? s i u = none) : s'.binary ≤ operators := by
  induction passes generalizing i with
  | nil => exact few
  | cons _ _ ih =>
      simp only [excessFrom?] at none
      split at none
      · cases none
      · rename_i few
        split at none
        · cases none
        · exact ih (Nat.le_of_not_lt few) none

theorem operators_of_excess (passes : Passes base s u ds s') {i j : Nat}
    (found : excessFrom? s i u = some (.operators j)) : operators < s'.binary := by
  induction passes generalizing i with
  | nil => cases found
  | cons _ rest ih =>
      simp only [excessFrom?] at found
      split at found
      · rename_i many
        exact Nat.lt_of_lt_of_le many (binary_le_of_passes rest)
      · split at found
        · cases found
        · exact ih found

theorem nesting_of_excess (passes : Passes base s u ds s') {i j : Nat}
    (found : excessFrom? s i u = some (.nesting j)) :
    ∃ k d, j = i + k ∧ ds[k]? = some d ∧ nesting < base + d := by
  induction passes generalizing i with
  | nil => cases found
  | @cons _ _ _ _ d _ shallow _ ih =>
      simp only [excessFrom?] at found
      split at found
      · cases found
      · split at found
        · rename_i deep
          cases found
          exact ⟨0, d, rfl, rfl, Nat.lt_of_lt_of_le deep shallow⟩
        · obtain ⟨k, d, rfl, at_k, deep⟩ := ih found
          exact ⟨k + 1, d, by omega, at_k, deep⟩

end

end Limits

open Limits (State)
open Limits.State

/-! ### The pass along a derivation -/

/-- From any brackets on the pass reads the tokens as an operand, or as one behind another. -/
def ReadsOperand (u : List Token) (operators : Nat) (ds : List Nat) : Prop :=
  ∀ held binary, Passes (depth ⟨held, 0, 0, false⟩) ⟨held, 0, binary, false⟩ u ds
    ⟨held, 0, binary + operators, true⟩

/-- Whether a phrase may be an item of a list. -/
def Phrase.isItem : Phrase → Bool
  | .expression | .entry => true
  | _ => false

/-- What the pass does on the tokens of a phrase. -/
def Phrase.Passed : (p : Phrase) → List Token → p.Value → List Nat → Prop
  | .expression, u, e, ds | .binary _, u, e, ds => ReadsOperand u e.operators ds
  | .unary, u, e, ds | .postfixed, u, e, ds | .primary, u, e, ds =>
    ∀ held waiting binary, Passes (depth ⟨held, waiting, 0, false⟩)
      ⟨held, waiting, binary, false⟩ u ds ⟨held, 0, binary + e.operators, true⟩
  | .links, u, ls, ds =>
    ∀ held binary, Passes (depth ⟨held, 0, 0, false⟩) ⟨held, 0, binary, true⟩ u ds
      ⟨held, 0, binary + Phrase.links.operators ls, true⟩
  | .link, u, l, ds =>
    ∀ held binary, Passes (depth ⟨held, 0, 0, false⟩) ⟨held, 0, binary, true⟩ u ds
      ⟨held, 0, binary + Phrase.link.operators l, true⟩
  | .entry, u, v, ds => ReadsOperand u v.2.operators ds
  | .items item, u, vs, ds =>
    item.isItem = true → ReadsOperand u ((Phrase.items item).operators vs) ds
  | .list item, u, vs, ds =>
    item.isItem = true → ∀ held binary, ∃ after,
      Passes (depth ⟨held, 0, 0, false⟩) ⟨held, 0, binary, false⟩ u ds
        ⟨held, 0, binary + (Phrase.list item).operators vs, after⟩

theorem Phrase.Passed.item {item : Phrase} {u : List Token} {v : item.Value} {ds : List Nat}
    (passed : item.Passed u v ds) (alone : item.isItem = true) :
    ReadsOperand u (item.operators v) ds := by
  cases item <;> first | exact passed | cases alone

namespace Expr

/-- A node that is no binary operator has the operators of the nodes inside it. -/
theorem operators_of_nodes {e : Expr} {inside : List Expr} (nodes : e.nodes = e :: inside)
    (other : e.isBinary = false) : e.operators = inside.countP isBinary := by
  rw [operators, nodes, List.countP_cons_of_neg (Bool.eq_false_iff.mp other)]

theorem operators_binary (op : BinaryOp) (e f : Expr) :
    (binary op e f).operators = e.operators + 1 + f.operators := by
  have inside : (binary op e f).operators = (e.nodes ++ f.nodes).countP isBinary + 1 :=
    List.countP_cons_of_pos rfl
  rw [inside, List.countP_append, Nat.add_right_comm]
  rfl

theorem operators_unary (op : UnaryOp) (e : Expr) : (unary op e).operators = e.operators :=
  operators_of_nodes rfl rfl

theorem operators_linked (base : Expr) (links : List Link) :
    (base.linked links).operators = base.operators + Phrase.links.operators links := by
  cases links with
  | nil => rfl
  | cons link links => exact (operators_of_nodes rfl rfl).trans List.countP_append

theorem operators_array (items : List Expr) :
    (array items).operators = (Phrase.list .expression).operators items := by
  rw [operators_of_nodes rfl rfl, nodesAll_eq]
  rfl

theorem operators_object (entries : List (String × Expr)) :
    (object entries).operators = (Phrase.list .entry).operators entries := by
  rw [operators_of_nodes rfl rfl, nodesEntries_eq]
  rfl

theorem operators_call (function : String) (arguments : List Expr) :
    (call function arguments).operators = (Phrase.list .expression).operators arguments := by
  rw [operators_of_nodes rfl rfl, nodesAll_eq]
  rfl

end Expr

namespace Phrase

theorem operators_cons_links (link : Link) (ls : List Link) :
    Phrase.links.operators (link :: ls) =
      Phrase.link.operators link + Phrase.links.operators ls := List.countP_append

theorem operators_method (word : String) (arguments : List Expr) (optional : Bool) :
    Phrase.link.operators (.method word arguments optional) =
      (Phrase.list .expression).operators arguments :=
  congrArg (List.countP Expr.isBinary) (Expr.nodesAll_eq arguments)

theorem operators_cons_items (item : Phrase) (v : item.Value) (vs : List item.Value) :
    (Phrase.items item).operators (v :: vs) =
      item.operators v + (Phrase.items item).operators vs := List.countP_append

end Phrase

theorem Depths.passed {p : Phrase} {u : List Token} {v : p.Value} {ds : List Nat}
    (word : Depths p u v ds) : p.Passed u v ds := by
  induction word with
  | expression _ ih => exact ih
  | operand _ ih => exact fun held => ih held 0
  | tighter _ ih => exact ih
  | @join _ _ op _ _ e f _ _ _ _ _ ihl ihr =>
      intro held binary
      rw [Expr.operators_binary, ← Nat.add_assoc, ← Nat.add_assoc]
      exact (ihl held binary).append (.step (next_binary op) (Nat.le_refl _) (ihr held _))
  | @apply op _ e _ _ ih =>
      intro held waiting binary
      rw [Expr.operators_unary]
      exact .step (next_unary op) (Nat.le_refl _) (ih held (waiting + 1) binary).deeper
  | bare _ ih => exact ih
  | postfixed _ _ ihb ihl =>
      intro held waiting binary
      rw [Expr.operators_linked, ← Nat.add_assoc]
      exact (ihb held waiting binary).append ((ihl held _).mono (depth_drop_le ..))
  | noLinks => exact fun held binary => .nil
  | moreLinks _ _ ihh iht =>
      intro held binary
      rw [Phrase.operators_cons_links, ← Nat.add_assoc]
      exact (ihh held binary).append (iht held _)
  | member means =>
      intro held binary
      exact .step (next_access means) (Nat.le_refl _) (.single rfl (Nat.le_refl _))
  | @method _ _ word _ arguments _ means _ ih =>
      intro held binary
      rw [Phrase.operators_method]
      obtain ⟨after, list⟩ := ih rfl (0 :: held) binary
      have brackets := Passes.between (s := ⟨held, 0, binary, true⟩) .openParen .closeParen list rfl
        fun _ => rfl
      exact .step (next_access means) (Nat.le_refl _) (.step rfl (Nat.le_refl _) brackets)
  | index _ ih =>
      intro held binary
      exact Passes.between (s := ⟨held, 0, binary, true⟩) .openBracket .closeBracket
        (ih (0 :: held) binary) rfl fun _ => rfl
  | parenthesized _ ih =>
      intro held waiting binary
      exact Passes.between (s := ⟨held, waiting, binary, false⟩) .openParen .closeParen
        (ih (waiting :: held) binary) rfl fun _ => rfl
  | array _ ih =>
      intro held waiting binary
      rw [Expr.operators_array]
      obtain ⟨after, list⟩ := ih rfl (waiting :: held) binary
      exact Passes.between (s := ⟨held, waiting, binary, false⟩) .openBracket .closeBracket
        list rfl fun _ => rfl
  | object _ ih =>
      intro held waiting binary
      rw [Expr.operators_object]
      obtain ⟨after, list⟩ := ih rfl (waiting :: held) binary
      exact Passes.between (s := ⟨held, waiting, binary, false⟩) .openBrace .closeBrace
        list rfl fun _ => rfl
  | literal writes =>
      exact fun held waiting binary => .single (next_literal writes) (depth_drop_le ..)
  | call _ ih =>
      intro held waiting binary
      rw [Expr.operators_call]
      obtain ⟨after, list⟩ := ih rfl (0 :: held) binary
      have brackets := Passes.between (s := ⟨held, 0, binary, true⟩) .openParen .closeParen list rfl
        fun _ => rfl
      exact .step rfl (depth_drop_le ..) (brackets.mono (depth_drop_le ..))
  | name => exact fun held waiting binary => .single rfl (depth_drop_le ..)
  | entry writes _ ih =>
      intro held binary
      exact .step (next_key writes) (Nat.le_refl _) (.step rfl (Nat.le_refl _) (ih held binary))
  | noItems => exact fun _ held binary => ⟨false, .nil⟩
  | someItems _ ih => exact fun alone held binary => ⟨true, ih alone held binary⟩
  | trailing _ ih =>
      intro alone held binary
      exact ⟨false, (ih alone held binary).append (.single rfl (Nat.le_refl _))⟩
  | last _ ih =>
      intro alone
      rw [Phrase.operators_cons_items]
      exact ih.item alone
  | more _ _ ihh iht =>
      intro alone held binary
      rw [Phrase.operators_cons_items, ← Nat.add_assoc]
      exact (ihh.item alone held binary).append
        (.step rfl (Nat.le_refl _) (iht alone held _))

/-- The pass reads an expression as an operand, with its binary operators and below its depths. -/
theorem Depths.passes {u : List Token} {e : Expr} {ds : List Nat}
    (word : Depths .expression u e ds) :
    Passes 0 .start u ds ⟨[], 0, e.operators, true⟩ := by
  have operand : ReadsOperand u e.operators ds := word.passed
  rw [← Nat.zero_add e.operators]
  exact operand [] 0

namespace Expr

/-- Where an expression takes all the tokens, the answer of the limits is right about it.  Tokens
that break no limit have no more binary operators than there may be.  Tokens that break the limit of
binary operators have more of them.  Where they break the limit of nesting, more brackets and unary
operators than there may be are open in the derivation. -/
theorem excess_agrees_with_derivation {tokens : List Token} {e : Expr} {next : Cursor Token}
    (read : Expr.parse tokens 0 = .success e next) (whole : next.rest = []) :
    (Limits.excess? tokens = none → e.operators ≤ Limits.operators) ∧
    (∀ i, Limits.excess? tokens = some (.operators i) → Limits.operators < e.operators) ∧
    (∃ ds, Depths .expression tokens e ds) ∧
    ∀ ds, Depths .expression tokens e ds → ds.length = tokens.length ∧
      ∀ i, Limits.excess? tokens = some (.nesting i) →
        ∃ d, ds[i]? = some d ∧ Limits.nesting < d := by
  obtain ⟨u, rest, eq, rfl, word, -⟩ := (parse_success_iff tokens 0 e next).mp read
  obtain rfl : rest = [] := whole
  rw [List.append_nil, List.drop_zero] at eq
  subst eq
  obtain ⟨ds, depths⟩ := word.depths
  have passes := depths.passes
  refine ⟨?_, ?_, ⟨ds, depths⟩, ?_⟩
  · exact Limits.operators_of_no_excess passes (Nat.zero_le _)
  · exact fun i => Limits.operators_of_excess passes
  · intro ds depths
    refine ⟨depths.passes.length_eq, ?_⟩
    intro i found
    obtain ⟨k, d, rfl, at_k, deep⟩ := Limits.nesting_of_excess depths.passes found
    rw [Nat.zero_add] at deep ⊢
    exact ⟨d, at_k, deep⟩

/-- The negation of an expression in parentheses. -/
def notTokens (u : List Token) : List Token :=
  .operator .not :: between .openParen u .closeParen

theorem derives_notTokens {u : List Token} {e : Expr} (word : Derives .expression u e) :
    Derives .expression (notTokens u) (.unary .not e) := by
  have operand := Derives.postfixed (.parenthesized word) .noLinks
  rw [List.append_nil] at operand
  have applied : Derives .unary (notTokens u) (.unary .not e) :=
    @Derives.apply .not _ _ (.bare operand)
  exact applied.expression_of_unary

theorem derives_nots (n : Nat) :
    Derives .expression (Nat.repeat notTokens n [.name "x"])
      (Nat.repeat (.unary .not) n (.name "x")) := by
  induction n with
  | zero => exact (Derives.bare (.postfixed .name .noLinks)).expression_of_unary
  | succ n ih => exact derives_notTokens ih

theorem excess_agrees_with_derivation_nots :
    Limits.excess? (Nat.repeat notTokens 33 [.name "x"]) = some (.nesting 64) ∧
      ∃ ds d, Depths .expression (Nat.repeat notTokens 33 [.name "x"])
        (Nat.repeat (.unary .not) 33 (.name "x")) ds ∧ ds[64]? = some d ∧ 64 < d := by
  have found : Limits.excess? (Nat.repeat notTokens 33 [.name "x"]) = some (.nesting 64) := by
    decide +kernel
  obtain ⟨-, -, ⟨ds, depths⟩, deep⟩ :=
    excess_agrees_with_derivation (parse_whole (derives_nots 33)) rfl
  obtain ⟨d, at_i, large⟩ := (deep ds depths).2 64 found
  exact ⟨found, ds, d, depths, at_i, large⟩

end Expr

end Trigger
