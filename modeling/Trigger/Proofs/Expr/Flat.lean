import Trigger.Expr.Canonical
import Trigger.Proofs.Expr.Exact

/-!
# What canonical tokens derive

`Expr.tokens` are the tokens of the canonical text of an expression.  They are an expression again:
every operator stands in parentheses of its own, so neither levels nor grouping matter, and every
tree but a chain is a primary expression.  Only the links of a chain stand bare behind the base.  So
where the base is a chain itself, the links of both are read as one chain, and this is all that is
lost.  `Expr.flat` is the tree that the tokens derive.
-/

namespace Trigger

open Token (between)

/-! ## Canonical tokens -/

/-- The token that writes a literal. -/
def Literal.token : Literal → Token
  | number value => .number value
  | string contents => .string contents
  | boolean true => .keyword .true
  | boolean false => .keyword .false
  | null => .keyword .null
  | absent => .keyword .undefined

theorem Literal.text_token (value : Literal) : value.token.text = value.text := by
  rcases value with _ | _ | (_ | _) | _ | _ <;> rfl

theorem Literal.literal?_token (value : Literal) : value.token.literal? = some value := by
  rcases value with _ | _ | (_ | _) | _ | _ <;> rfl

/-- The operator that introduces an access. -/
def Link.access (optional : Bool) : Operator := if optional then .optionalDot else .dot

theorem Link.text_access (optional : Bool) : (access optional).text = accessText optional := by
  cases optional <;> rfl

theorem Link.access?_access (optional : Bool) : (access optional).access? = some optional := by
  cases optional <;> rfl

namespace Expr

mutual

/-- The tokens of the canonical text of an expression. -/
def tokens : Expr → List Token
  | literal value => [value.token]
  | name word => [.name word]
  | array items => between .openBracket (tokensAll items) .closeBracket
  | object entries => between .openBrace (tokensEntries entries) .closeBrace
  | call function arguments =>
    .name function :: between .openParen (tokensAll arguments) .closeParen
  | chain base links => base.tokens ++ tokensLinks links
  | unary op operand => between .openParen (.operator op.symbol :: operand.tokens) .closeParen
  | binary op left right =>
    between .openParen (left.tokens ++ .operator op.symbol :: right.tokens) .closeParen
termination_by structural x => x

def tokensAll : List Expr → List Token
  | [] => []
  | [e] => e.tokens
  | e :: es => e.tokens ++ .delimiter .comma :: tokensAll es
termination_by structural x => x

/-- The tokens of values under keys. -/
def tokensEntries : List (String × Expr) → List Token
  | [] => []
  | [(key, e)] => .name key :: .delimiter .colon :: e.tokens
  | (key, e) :: entries =>
    (.name key :: .delimiter .colon :: e.tokens) ++ .delimiter .comma :: tokensEntries entries
termination_by structural x => x

def tokensLinks : List Link → List Token
  | [] => []
  | link :: links => tokensLink link ++ tokensLinks links
termination_by structural x => x

def tokensLink : Link → List Token
  | .member word optional => [.operator (Link.access optional), .name word]
  | .method word arguments optional =>
    .operator (Link.access optional) :: .name word ::
      between .openParen (tokensAll arguments) .closeParen
  | .index key => between .openBracket key.tokens .closeBracket
termination_by structural x => x

end

theorem tokens_linked (base : Expr) (links : List Link) :
    (base.linked links).tokens = base.tokens ++ tokensLinks links := by
  cases links with
  | nil => exact (List.append_nil _).symm
  | cons link links => rfl

/-! ## Flat trees -/

/-- The expression with more links behind it, where those of a chain go on. -/
def extend : Expr → List Link → Expr
  | chain base links, more => chain base (links ++ more)
  | base, more => base.linked more

mutual

/-- The expression with every chain on a chain merged into one. -/
def flat : Expr → Expr
  | literal value => literal value
  | name word => name word
  | array items => array (flatAll items)
  | object entries => object (flatEntries entries)
  | call function arguments => call function (flatAll arguments)
  | chain base links => base.flat.extend (flatLinks links)
  | unary op operand => unary op operand.flat
  | binary op left right => binary op left.flat right.flat
termination_by structural x => x

def flatAll : List Expr → List Expr
  | [] => []
  | e :: es => e.flat :: flatAll es
termination_by structural x => x

/-- The values under keys, flat. -/
def flatEntries : List (String × Expr) → List (String × Expr)
  | [] => []
  | (key, e) :: entries => (key, e.flat) :: flatEntries entries
termination_by structural x => x

def flatLinks : List Link → List Link
  | [] => []
  | link :: links => flatLink link :: flatLinks links
termination_by structural x => x

def flatLink : Link → Link
  | .member word optional => .member word optional
  | .method word arguments optional => .method word (flatAll arguments) optional
  | .index key => .index key.flat
termination_by structural x => x

end

def isChain : Expr → Bool
  | chain _ _ => true
  | _ => false

theorem extend_linked {base : Expr} (bare : base.isChain = false) (links more : List Link) :
    (base.linked links).extend more = base.linked (links ++ more) := by
  cases links with
  | nil => cases base <;> first | rfl | cases bare
  | cons link links => rfl

end Expr

/-! ## Derivations -/

namespace Derives

theorem list_of_items {item : Phrase} {u : List Token} {vs : List item.Value}
    (items : u = [] ∧ vs = [] ∨ Derives (.items item) u vs) : Derives (.list item) u vs := by
  obtain ⟨rfl, rfl⟩ | items := items
  · exact .noItems
  · exact .someItems items

theorem links_append {u w : List Token} {links more : List Link} (first : Derives .links u links)
    (second : Derives .links w more) : Derives .links (u ++ w) (links ++ more) := by
  rw [← links_iff] at first second ⊢
  exact first.append second

theorem binary_behind {levels : List Level} {u : List Token} {e : Expr}
    (word : Derives (.binary levels) u e) (looser : List Level) :
    Derives (.binary (looser ++ levels)) u e := by
  induction looser with
  | nil => exact word
  | cons _ _ ih => exact .tighter ih

/-- Two operands with an operator between them are an expression. -/
theorem expression_of_operands (op : BinaryOp) {u w : List Token} {e f : Expr}
    (left : Derives .unary u e) (right : Derives .unary w f) :
    Derives .expression (u ++ .operator op.symbol :: w) (.binary op e f) := by
  have mem : op.level ∈ Level.all := by cases op.level <;> decide
  obtain ⟨looser, tighter, eq⟩ := List.append_of_mem mem
  have joined : Derives (.binary (op.level :: tighter)) (u ++ .operator op.symbol :: w)
      (.binary op e f) := .join (left.binary_of_unary _) rfl (right.binary_of_unary tighter)
  have lifted := joined.binary_behind looser
  rw [← eq] at lifted
  exact .expression lifted

end Derives

namespace Expr

/-- The canonical tokens are a primary expression that is no chain, with links behind it. -/
def Forms (e : Expr) : Prop :=
  ∃ base links u w, e.tokens = u ++ w ∧ Derives .primary u base ∧ base.isChain = false ∧
    Derives .links w links ∧ e.flat = base.linked links

theorem Forms.postfixed {e : Expr} (forms : e.Forms) : Derives .postfixed e.tokens e.flat := by
  obtain ⟨base, links, u, w, eq, primary, -, behind, same⟩ := forms
  rw [eq, same]
  exact .postfixed primary behind

theorem Forms.unary {e : Expr} (forms : e.Forms) : Derives .unary e.tokens e.flat :=
  .bare forms.postfixed

theorem Forms.expression {e : Expr} (forms : e.Forms) : Derives .expression e.tokens e.flat :=
  forms.unary.expression_of_unary

theorem Forms.of_primary {e : Expr} (primary : Derives .primary e.tokens e.flat)
    (bare : e.flat.isChain = false) : e.Forms :=
  ⟨e.flat, [], e.tokens, [], (List.append_nil _).symm, primary, bare, .noLinks, rfl⟩

mutual

theorem forms : ∀ e : Expr, e.Forms
  | .literal value => .of_primary (.literal value.literal?_token) rfl
  | .name _ => .of_primary .name rfl
  | .array items => .of_primary (.array (.list_of_items (formsAll items))) rfl
  | .object entries => .of_primary (.object (.list_of_items (formsEntries entries))) rfl
  | .call _ arguments => .of_primary (.call (.list_of_items (formsAll arguments))) rfl
  | .chain inner links => by
      obtain ⟨base, first, u, w, eq, primary, bare, behind, same⟩ := forms inner
      have more := formsLinks links
      refine ⟨base, first ++ flatLinks links, u, w ++ tokensLinks links, ?_, primary, bare,
        behind.links_append more, ?_⟩
      · rw [tokens, eq, List.append_assoc]
      · rw [flat, same, extend_linked bare]
  | .unary op operand =>
      .of_primary (.parenthesized (Derives.apply (forms operand).unary).expression_of_unary) rfl
  | .binary op left right =>
      .of_primary (.parenthesized (.expression_of_operands op (forms left).unary
        (forms right).unary)) rfl

theorem formsAll : ∀ es : List Expr, tokensAll es = [] ∧ flatAll es = [] ∨
    Derives (.items .expression) (tokensAll es) (flatAll es)
  | [] => .inl ⟨rfl, rfl⟩
  | [e] => .inr (.last (forms e).expression)
  | e :: f :: es => by
      obtain ⟨-, none⟩ | rest := formsAll (f :: es)
      · cases none
      · exact .inr (.more (forms e).expression rest)

theorem formsEntries : ∀ entries : List (String × Expr),
    tokensEntries entries = [] ∧ flatEntries entries = [] ∨
      Derives (.items .entry) (tokensEntries entries) (flatEntries entries)
  | [] => .inl ⟨rfl, rfl⟩
  | [(_, e)] => .inr (.last (.entry rfl (forms e).expression))
  | (_, e) :: entry :: entries => by
      obtain ⟨-, none⟩ | rest := formsEntries (entry :: entries)
      · cases none
      · exact .inr (.more (.entry rfl (forms e).expression) rest)

theorem formsLinks : ∀ links : List Link,
    Derives .links (tokensLinks links) (flatLinks links)
  | [] => .noLinks
  | link :: links => .moreLinks (formsLink link) (formsLinks links)

theorem formsLink : ∀ link : Link, Derives .link (tokensLink link) (flatLink link)
  | .member _ optional => .member (Link.access?_access optional)
  | .method _ arguments optional =>
      .method (Link.access?_access optional) (.list_of_items (formsAll arguments))
  | .index key => .index (forms key).expression

end

/-- The tokens of the canonical text derive the flat tree. -/
theorem derives_tokens (e : Expr) : Derives .expression e.tokens e.flat := e.forms.expression

end Expr

end Trigger
