import Trigger.Expr.Production
import Trigger.Proofs.Parser.Language

/-!
# The grammar of expressions as a relation

`Derives p u v` says that the tokens `u` form a phrase `p`, and that `v` is what they stand for.
The productions are those of the language, one constructor for each alternative:

* `Expression = LogicalOr`, and each level of binary operators is
  `Level = Operand (operator Operand)*`, where the operands are those of the next tighter level.  A
  level groups to the left, so it is given by its last operator.
* `Unary = ("!" | "-") Unary | Postfix` and `Postfix = Primary Link*`.
* `Link = access ident | access ident "(" Args ")" | "[" Expression "]"`, where an access is a dot
  or a question mark with a dot.
* `Primary = "(" Expression ")" | "[" Args "]" | "{" Entries "}" | literal | ident "(" Args ")" |
  ident`.
* `Args = (Expression ("," Expression)* ","?)?`, and `Entries` is the same with
  `Entry = (ident | string) ":" Expression`.

Nothing here knows how a parser would find a derivation.
-/

namespace Trigger

namespace Token

/-- The literal that a token writes. -/
def literal? : Token → Option Literal
  | number value => some (.number value)
  | string contents => some (.string contents)
  | keyword word => some word.literal
  | _ => none

/-- The key of an entry that a token writes. -/
def key? : Token → Option String
  | name word => some word
  | string contents => some contents
  | _ => none

/-- Tokens between two delimiters. -/
def between (left : Delimiter) (u : List Token) (right : Delimiter) : List Token :=
  .delimiter left :: (u ++ [.delimiter right])

end Token

/-- What tokens may form. -/
inductive Phrase where
  /-- An expression. -/
  | expression
  /-- Operands with operators of the given levels between them, loosest first. -/
  | binary (levels : List Level)
  /-- An operand with unary operators in front. -/
  | unary
  /-- A primary expression with links behind it. -/
  | postfixed
  /-- An expression that is no more than its own tokens. -/
  | primary
  /-- Links. -/
  | links
  /-- A link. -/
  | link
  /-- A value under its key. -/
  | entry
  /-- Phrases with commas between them, possibly with one behind the last, or none at all. -/
  | list (item : Phrase)
  /-- Phrases with commas between them, at least one. -/
  | items (item : Phrase)

/-- What phrases stand for. -/
@[reducible]
def Phrase.Value : Phrase → Type
  | expression | binary _ | unary | postfixed | primary => Expr
  | links => List Link
  | link => Link
  | entry => String × Expr
  | list item | items item => List item.Value

open Token (between)

/-- Tokens form a phrase, and stand for a value. -/
inductive Derives : (p : Phrase) → List Token → p.Value → Prop
  | expression {u : List Token} {e : Expr} :
      Derives (.binary Level.all) u e → Derives .expression u e
  | operand {u : List Token} {e : Expr} : Derives .unary u e → Derives (.binary []) u e
  | tighter {level : Level} {levels : List Level} {u : List Token} {e : Expr} :
      Derives (.binary levels) u e → Derives (.binary (level :: levels)) u e
  | join {level : Level} {levels : List Level} {op : BinaryOp} {u w : List Token} {e f : Expr} :
      Derives (.binary (level :: levels)) u e → op.level = level → Derives (.binary levels) w f →
      Derives (.binary (level :: levels)) (u ++ .operator op.symbol :: w) (.binary op e f)
  | apply {op : UnaryOp} {u : List Token} {e : Expr} :
      Derives .unary u e → Derives .unary (.operator op.symbol :: u) (.unary op e)
  | bare {u : List Token} {e : Expr} : Derives .postfixed u e → Derives .unary u e
  | postfixed {u w : List Token} {base : Expr} {links : List Link} :
      Derives .primary u base → Derives .links w links →
      Derives .postfixed (u ++ w) (base.linked links)
  | noLinks : Derives .links [] []
  | moreLinks {u w : List Token} {link : Link} {links : List Link} :
      Derives .link u link → Derives .links w links → Derives .links (u ++ w) (link :: links)
  | member {symbol : Operator} {optional : Bool} {word : String} :
      symbol.access? = some optional →
      Derives .link [.operator symbol, .name word] (.member word optional)
  | method {symbol : Operator} {optional : Bool} {word : String} {u : List Token}
      {arguments : List Expr} :
      symbol.access? = some optional → Derives (.list .expression) u arguments →
      Derives .link (.operator symbol :: .name word :: between .openParen u .closeParen)
        (.method word arguments optional)
  | index {u : List Token} {key : Expr} :
      Derives .expression u key → Derives .link (between .openBracket u .closeBracket) (.index key)
  | parenthesized {u : List Token} {e : Expr} :
      Derives .expression u e → Derives .primary (between .openParen u .closeParen) e
  | array {u : List Token} {items : List Expr} :
      Derives (.list .expression) u items →
      Derives .primary (between .openBracket u .closeBracket) (.array items)
  | object {u : List Token} {entries : List (String × Expr)} :
      Derives (.list .entry) u entries →
      Derives .primary (between .openBrace u .closeBrace) (.object entries)
  | literal {t : Token} {value : Literal} :
      t.literal? = some value → Derives .primary [t] (.literal value)
  | call {word : String} {u : List Token} {arguments : List Expr} :
      Derives (.list .expression) u arguments →
      Derives .primary (.name word :: between .openParen u .closeParen) (.call word arguments)
  | name {word : String} : Derives .primary [.name word] (.name word)
  | entry {t : Token} {key : String} {u : List Token} {e : Expr} :
      t.key? = some key → Derives .expression u e →
      Derives .entry (t :: .delimiter .colon :: u) (key, e)
  | noItems {item : Phrase} : Derives (.list item) [] []
  | someItems {item : Phrase} {u : List Token} {vs : List item.Value} :
      Derives (.items item) u vs → Derives (.list item) u vs
  | trailing {item : Phrase} {u : List Token} {vs : List item.Value} :
      Derives (.items item) u vs → Derives (.list item) (u ++ [.delimiter .comma]) vs
  | last {item : Phrase} {u : List Token} {v : item.Value} :
      Derives item u v → Derives (.items item) u [v]
  | more {item : Phrase} {u w : List Token} {v : item.Value} {vs : List item.Value} :
      Derives item u v → Derives (.items item) w vs →
      Derives (.items item) (u ++ .delimiter .comma :: w) (v :: vs)

/-! ## Phrases as languages

Each phrase is put together from its parts in the ways of `Language`. -/

namespace Language

/-- The words of a language between two delimiters. -/
def bracketed (left : Delimiter) (L : Language Token α) (right : Delimiter) : Language Token α :=
  fun u v => ∃ w, u = between left w right ∧ L w v

theorem startsIn_bracketed (left : Delimiter) (L : Language Token α) (right : Delimiter) :
    (bracketed left L right).StartsIn (· = .delimiter left) := by
  rintro u v ⟨w, rfl, -⟩
  exact ⟨_, _, rfl, rfl⟩

/-- A delimiter, a word and a delimiter, one after the other. -/
theorem bracketed_iff (left : Delimiter) (L : Language Token α) (right : Delimiter)
    (u : List Token) (v : α) :
    ((only (.delimiter left)).seq (L.seq (only (.delimiter right)))).map (·.2.1) u v ↔
      bracketed left L right u v := by
  constructor
  · rintro ⟨⟨_, v, _⟩, ⟨_, _, rfl, ⟨rfl, -⟩, w, _, rfl, word, rfl, -⟩, rfl⟩
    exact ⟨w, rfl, word⟩
  · rintro ⟨w, rfl, word⟩
    exact ⟨(_, v, _), ⟨[_], _, rfl, ⟨rfl, rfl⟩, w, [_], rfl, word, rfl, rfl⟩, rfl⟩

end Language

namespace Token

/-- What an operator token means. -/
def meaning? (read : Operator → Option α) : Token → Option α
  | operator symbol => read symbol
  | _ => none

/-- The word of a name. -/
def name? : Token → Option String
  | name word => some word
  | _ => none

/-- The separator of list items. -/
def comma : Token := .delimiter .comma

end Token

namespace Derives

open Trigger.Language Token

/-! ### Lists and links -/

theorem list_inv {item : Phrase} {u : List Token} {vs : List item.Value}
    (word : Derives (.list item) u vs) :
    (u = [] ∧ vs = []) ∨ ∃ w, Derives (.items item) w vs ∧ (u = w ∨ u = w ++ [comma]) := by
  cases word with
  | noItems => exact .inl ⟨rfl, rfl⟩
  | someItems items => exact .inr ⟨_, items, .inl rfl⟩
  | trailing items => exact .inr ⟨_, items, .inr rfl⟩

theorem items_ne_nil {item : Phrase} {u : List Token} {vs : List item.Value}
    (words : Derives (.items item) u vs) : vs ≠ [] := by
  cases words <;> simp

/-- An item in front of the rest of a list. -/
theorem list_of_tail {item : Phrase} {u w : List Token} {v : item.Value} {vs : List item.Value}
    (head : Derives item u v) (tail : Tail (Derives item) (only comma) w vs) :
    Derives (.list item) (u ++ w) (v :: vs) := by
  induction tail generalizing u v with
  | nil =>
      rw [List.append_nil]
      exact .someItems (.last head)
  | trailing separator =>
      obtain ⟨rfl, -⟩ := separator
      exact .trailing (.last head)
  | cons separator next _ ih =>
      obtain ⟨rfl, -⟩ := separator
      obtain ⟨-, none⟩ | ⟨rest, items, eq⟩ := list_inv (ih next)
      · cases none
      · have longer := Derives.more head items
        rw [List.append_assoc]
        rcases eq with eq | eq
        · rw [eq]
          exact .someItems longer
        · rw [eq]
          have closed := Derives.trailing longer
          rwa [List.append_assoc] at closed

theorem listed_of_items {item : Phrase} {u w : List Token} {vs : List item.Value}
    (items : Derives (.items item) u vs) (tail : Tail (Derives item) (only comma) w []) :
    Listed (Derives item) (only comma) (u ++ w) vs := by
  cases items with
  | last head => exact .cons head tail
  | more head rest =>
      have behind := (listed_of_items rest tail).behind (items_ne_nil rest) ⟨rfl, rfl⟩
      rw [List.append_assoc]
      exact .cons head behind

theorem list_iff (item : Phrase) (u : List Token) (vs : List item.Value) :
    Listed (Derives item) (only comma) u vs ↔ Derives (.list item) u vs := by
  constructor
  · intro words
    cases words with
    | nil => exact .noItems
    | cons head tail => exact list_of_tail head tail
  · intro words
    obtain ⟨rfl, rfl⟩ | ⟨w, items, eq⟩ := list_inv words
    · exact .nil
    · rcases eq with rfl | rfl
      · have listed := listed_of_items items .nil
        rwa [List.append_nil] at listed
      · exact listed_of_items items (.trailing ⟨rfl, rfl⟩)

theorem star_of_links {u : List Token} {links : List Link} (words : Derives .links u links) :
    Star (Derives .link) u links := by
  cases words with
  | noLinks => exact .nil
  | moreLinks head tail => exact .cons head (star_of_links tail)

theorem links_iff (u : List Token) (links : List Link) :
    Star (Derives .link) u links ↔ Derives .links u links := by
  refine ⟨?_, star_of_links⟩
  intro words
  induction words with
  | nil => exact .noLinks
  | cons head _ ih => exact .moreLinks head ih

/-- Arguments in parentheses. -/
def Arguments : Language Token (List Expr) :=
  bracketed .openParen (Derives (.list .expression)) .closeParen

/-- What an access may stand in front of: a method call, if there are arguments. -/
def accessed : Bool × String × Option (List Expr) → Link
  | (optional, word, some arguments) => .method word arguments optional
  | (optional, word, none) => .member word optional

/-- A name behind a dot, with the arguments of a method call. -/
def Access : Language Token Link :=
  map accessed (seq (item (meaning? Operator.access?)) (seq (item name?) (option Arguments)))

/-- A key in brackets. -/
def Index : Language Token Link :=
  map .index (bracketed .openBracket (Derives .expression) .closeBracket)

theorem link_iff (u : List Token) (link : Link) :
    union Access Index u link ↔ Derives .link u link := by
  constructor
  · rintro (⟨⟨optional, word, arguments⟩, words, rfl⟩ | ⟨key, ⟨w, rfl, word⟩, rfl⟩)
    · obtain ⟨_, _, rfl, ⟨t, rfl, ht⟩, _, _, rfl, ⟨t', rfl, ht'⟩, word'⟩ := words
      cases t <;> simp only [meaning?, reduceCtorEq] at ht
      cases t' <;> simp only [name?, reduceCtorEq, Option.some.injEq] at ht'
      subst ht'
      cases arguments with
      | none =>
          cases word'
          exact .member ht
      | some arguments =>
          obtain ⟨w, rfl, list⟩ := word'
          exact .method ht list
    · exact .index word
  · intro word
    cases word with
    | @member symbol optional word means =>
        exact .inl ⟨(optional, word, none),
          ⟨[_], [_], rfl, ⟨_, rfl, means⟩, [_], [], rfl, ⟨_, rfl, rfl⟩, rfl⟩, rfl⟩
    | @method symbol optional word u arguments means list =>
        exact .inl ⟨(optional, word, some arguments),
          ⟨[_], _, rfl, ⟨_, rfl, means⟩, [_], _, rfl, ⟨_, rfl, rfl⟩, u, rfl, list⟩, rfl⟩
    | @index u key inner => exact .inr ⟨key, ⟨u, rfl, inner⟩, rfl⟩

/-! ### Operands -/

/-- An array. -/
def Array : Language Token Expr :=
  map .array (bracketed .openBracket (Derives (.list .expression)) .closeBracket)

/-- An object. -/
def Object : Language Token Expr :=
  map .object (bracketed .openBrace (Derives (.list .entry)) .closeBrace)

/-- What stands for a name: a call, if there are arguments. -/
def named : String × Option (List Expr) → Expr
  | (word, some arguments) => .call word arguments
  | (word, none) => .name word

/-- A name, with the arguments of a call. -/
def Named : Language Token Expr := map named (seq (item name?) (option Arguments))

/-- An expression in parentheses. -/
def Parenthesized : Language Token Expr := bracketed .openParen (Derives .expression) .closeParen

theorem primary_iff (u : List Token) (e : Expr) :
    union Parenthesized
        (union Array (union Object (union (map .literal (item literal?)) Named))) u e ↔
      Derives .primary u e := by
  constructor
  · rintro (⟨w, rfl, word⟩ | ⟨items, ⟨w, rfl, words⟩, rfl⟩ | ⟨entries, ⟨w, rfl, words⟩, rfl⟩ |
      ⟨value, ⟨t, rfl, ht⟩, rfl⟩ | ⟨⟨word, arguments⟩, ⟨_, _, rfl, ⟨t, rfl, ht⟩, word'⟩, rfl⟩)
    · exact .parenthesized word
    · exact .array words
    · exact .object words
    · exact .literal ht
    · cases t <;> simp only [name?, reduceCtorEq, Option.some.injEq] at ht
      subst ht
      cases arguments with
      | none =>
          cases word'
          exact .name
      | some arguments =>
          obtain ⟨w, rfl, list⟩ := word'
          exact .call list
  · intro word
    cases word with
    | @parenthesized u e inner => exact .inl ⟨u, rfl, inner⟩
    | @array u items words => exact .inr (.inl ⟨items, ⟨u, rfl, words⟩, rfl⟩)
    | @object u entries words => exact .inr (.inr (.inl ⟨entries, ⟨u, rfl, words⟩, rfl⟩))
    | @literal t value writes =>
        exact .inr (.inr (.inr (.inl ⟨value, ⟨t, rfl, writes⟩, rfl⟩)))
    | @call word u arguments words =>
        exact .inr (.inr (.inr (.inr
          ⟨(word, some arguments), ⟨[_], _, rfl, ⟨_, rfl, rfl⟩, u, rfl, words⟩, rfl⟩)))
    | @name word =>
        exact .inr (.inr (.inr (.inr
          ⟨(word, none), ⟨[_], [], rfl, ⟨_, rfl, rfl⟩, rfl⟩, rfl⟩)))

theorem entry_iff (u : List Token) (v : String × Expr) :
    seq (item key?) (map Prod.snd (seq (only (.delimiter .colon)) (Derives .expression))) u v
      ↔ Derives .entry u v := by
  constructor
  · rintro ⟨_, _, rfl, ⟨t, rfl, ht⟩, ⟨_, e⟩, ⟨_, w, rfl, ⟨rfl, -⟩, word⟩, same⟩
    cases v
    cases same
    exact .entry ht word
  · intro word
    cases word with
    | @entry t key u e writes inner =>
        exact ⟨[t], _, rfl, ⟨t, rfl, writes⟩, (_, e), ⟨[_], u, rfl, ⟨rfl, rfl⟩, inner⟩, rfl⟩

theorem postfixed_iff (u : List Token) (e : Expr) :
    map (fun (base, links) => base.linked links) (seq (Derives .primary) (Star (Derives .link))) u e
      ↔ Derives .postfixed u e := by
  constructor
  · rintro ⟨⟨base, links⟩, ⟨u₁, u₂, rfl, word, words⟩, rfl⟩
    exact .postfixed word ((links_iff _ _).mp words)
  · intro word
    cases word with
    | @postfixed u w base links head tail =>
        exact ⟨(base, links), ⟨u, w, rfl, head, star_of_links tail⟩, rfl⟩

/-- A unary operator with its operand. -/
def Applied : Language Token Expr :=
  map (fun (op, e) => .unary op e) (seq (item (meaning? Operator.unary?)) (Derives .unary))

theorem unary?_symbol (op : UnaryOp) : op.symbol.unary? = some op := by
  cases op <;> rfl

theorem symbol_of_unary? {symbol : Operator} {op : UnaryOp} (means : symbol.unary? = some op) :
    op.symbol = symbol := by
  cases symbol <;> cases means <;> rfl

theorem unary_iff (u : List Token) (e : Expr) :
    union Applied (Derives .postfixed) u e ↔ Derives .unary u e := by
  constructor
  · rintro (⟨⟨op, operand⟩, ⟨_, w, rfl, ⟨t, rfl, ht⟩, word⟩, rfl⟩ | word)
    · cases t <;> simp only [meaning?, reduceCtorEq] at ht
      cases symbol_of_unary? ht
      exact .apply word
    · exact .bare word
  · intro word
    cases word with
    | @apply op u e inner =>
        exact .inl ⟨(op, e), ⟨[_], u, rfl, ⟨_, rfl, unary?_symbol op⟩, inner⟩, rfl⟩
    | bare inner => exact .inr inner

/-! ### Levels of operators -/

/-- An operator of a level with the operand behind it. -/
def Joined (level : Level) (levels : List Level) : Language Token (BinaryOp × Expr) :=
  seq (item (meaning? (Operator.binaryAt? level))) (Derives (.binary levels))

theorem binaryAt?_iff {symbol : Operator} {level : Level} {op : BinaryOp} :
    symbol.binaryAt? level = some op ↔ op.symbol = symbol ∧ op.level = level := by
  constructor
  · simp only [Operator.binaryAt?, Option.filter_eq_some_iff, decide_eq_true_eq]
    rintro ⟨found, same⟩
    exact ⟨by simpa using List.find?_some found, same⟩
  · rintro ⟨rfl, rfl⟩
    cases op <;> rfl

/-- Further operands go behind what their operators join them to. -/
theorem binary_joined {level : Level} {levels : List Level} {u w : List Token} {e : Expr}
    {rest : List (BinaryOp × Expr)} (head : Derives (.binary (level :: levels)) u e)
    (tail : Star (Joined level levels) w rest) :
    Derives (.binary (level :: levels)) (u ++ w) (Production.joined e rest) := by
  induction tail generalizing u e with
  | nil => rwa [List.append_nil]
  | cons next _ ih =>
      obtain ⟨_, _, rfl, ⟨t, rfl, ht⟩, operand⟩ := next
      cases t <;> simp only [meaning?, reduceCtorEq] at ht
      obtain ⟨rfl, same⟩ := binaryAt?_iff.mp ht
      rw [← List.append_assoc]
      exact ih (.join head same operand)

theorem joined_of_binary {level : Level} {levels : List Level} {u : List Token} {e : Expr}
    (word : Derives (.binary (level :: levels)) u e) :
    ∃ first rest, seq (Derives (.binary levels)) (Star (Joined level levels)) u (first, rest) ∧
      Production.joined first rest = e := by
  cases word with
  | tighter inner => exact ⟨e, [], ⟨u, [], (List.append_nil u).symm, inner, .nil⟩, rfl⟩
  | @join _ _ op _ _ _ f left same right =>
      obtain ⟨first, rest, ⟨u₁, u₂, rfl, head, tail⟩, rfl⟩ := joined_of_binary left
      have means : op.symbol.binaryAt? level = some op := binaryAt?_iff.mpr ⟨rfl, same⟩
      have next : Joined level levels _ (op, f) :=
        ⟨[_], _, rfl, ⟨.operator op.symbol, rfl, means⟩, right⟩
      have last := tail.snoc next
      refine ⟨first, rest ++ [(op, f)], ⟨u₁, _, List.append_assoc _ _ _, head, last⟩, ?_⟩
      simp [Production.joined]

theorem binary_iff (level : Level) (levels : List Level) (u : List Token) (e : Expr) :
    map (fun (first, rest) => Production.joined first rest)
      (seq (Derives (.binary levels)) (Star (Joined level levels))) u e
      ↔ Derives (.binary (level :: levels)) u e := by
  constructor
  · rintro ⟨⟨first, rest⟩, ⟨u₁, u₂, rfl, head, tail⟩, rfl⟩
    exact binary_joined (.tighter head) tail
  · intro word
    obtain ⟨first, rest, words, same⟩ := joined_of_binary word
    exact ⟨(first, rest), words, same⟩

theorem operand_iff (u : List Token) (e : Expr) :
    Derives .unary u e ↔ Derives (.binary []) u e := by
  refine ⟨.operand, ?_⟩
  intro word
  cases word with
  | operand inner => exact inner

theorem expression_iff (u : List Token) (e : Expr) :
    Derives (.binary Level.all) u e ↔ Derives .expression u e := by
  refine ⟨.expression, ?_⟩
  intro word
  cases word with
  | expression inner => exact inner

/-- An operand alone, at every level. -/
theorem binary_of_unary {u : List Token} {e : Expr} (word : Derives .unary u e)
    (levels : List Level) : Derives (.binary levels) u e := by
  induction levels with
  | nil => exact .operand word
  | cons _ _ ih => exact .tighter ih

theorem expression_of_unary {u : List Token} {e : Expr} (word : Derives .unary u e) :
    Derives .expression u e :=
  .expression (word.binary_of_unary _)

end Derives

end Trigger
