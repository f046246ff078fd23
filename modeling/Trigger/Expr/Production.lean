import Trigger.Expr.Basic
import Trigger.Parser.Grammar
import Trigger.Token.Basic

/-!
# The grammar of expressions

The productions, loosest binding first.

* An expression is a disjunction.  Each level of binary operators is a list of operands of the next
  tighter level with operators of the level between them, and it groups to the left.
* The operands of the tightest level are unary: a unary operator in front of a unary expression, or
  a postfixed one.
* A postfixed expression is a primary one with links behind it: `.name`, `.name(arguments)`, the
  same with `?.`, or `[expression]`.
* A primary expression is an expression in parentheses, an array, an object, a literal, the call of
  a named function, or a name.

A comma may stand behind the last item of an array, of an object and of the arguments.  The key of
an object entry is a name or a string.  Only `expression` and `unary` contain themselves, so they
are the rules of the grammar; the other productions are definitions.
-/

namespace Trigger

instance : Written Token where
  written token := String.ofList token.text

/-- The productions that contain themselves. -/
inductive Production : Type → Type where
  | expression : Production Expr
  | unary : Production Expr

/-- A parser of tokens that may call the productions. -/
abbrev TokenParser := Parser Token Production

namespace Production

/-! ## Single tokens -/

def name : TokenParser String :=
  .within "identifier" <| .satisfy fun
    | .name word => some word
    | _ => none

def number : TokenParser Literal := .satisfy fun
  | .number value => some (.number value)
  | _ => none

def string : TokenParser Literal := .satisfy fun
  | .string contents => some (.string contents)
  | _ => none

def contents : TokenParser String := .satisfy fun
  | .string contents => some contents
  | _ => none

def keyword : TokenParser Literal := .satisfy fun
  | .keyword word => some word.literal
  | _ => none

/-- A literal of any kind. -/
def literal : TokenParser Literal := .within "literal" (.choice [number, string, keyword])

def operator (symbol : Operator) : TokenParser Token := .equal (.operator symbol)

/-- The name of a delimiter in errors, if it has one. -/
def delimiterName? : Delimiter → Option String
  | .comma => some "comma"
  | .closeParen => some "close paren"
  | .closeBracket => some "close bracket"
  | .closeBrace => some "close brace"
  | _ => none

def delimiter (symbol : Delimiter) : TokenParser Token :=
  match delimiterName? symbol with
  | some part => .within part (.equal (.delimiter symbol))
  | none => .equal (.delimiter symbol)

def meaning {α : Type} (read : Operator → Option α) : TokenParser α := .satisfy fun
  | .operator symbol => read symbol
  | _ => none

/-! ## Primary expressions -/

/-- Items between brackets, with commas between them. -/
def listed {α : Type} (left : Delimiter) (item : TokenParser α) (right : Delimiter) :
    TokenParser (List α) :=
  .delimited (delimiter left) (.separated item (delimiter .comma)) (delimiter right)

def arguments : TokenParser (List Expr) :=
  .within "arguments" (listed .openParen (.call expression) .closeParen)

def parenthesized : TokenParser Expr :=
  .delimited (delimiter .openParen) (.call expression) (delimiter .closeParen)

def array : TokenParser Expr :=
  .within "array" (.map .array (listed .openBracket (.call expression) .closeBracket))

def entry : TokenParser (String × Expr) :=
  .pair (.choice [name, contents]) (.preceded (delimiter .colon) (.call expression))

def object : TokenParser Expr :=
  .within "object" (.map .object (listed .openBrace entry .closeBrace))

/-- The call of a function, or its name alone. -/
def callOrName : TokenParser Expr :=
  .map (fun
    | (word, some arguments) => .call word arguments
    | (word, none) => .name word) (.pair name (.optional arguments))

def primary : TokenParser Expr :=
  .within "primary" (.choice [parenthesized, array, object, .map .literal literal, callOrName])

/-! ## Links -/

def access : TokenParser Link :=
  .map (fun
    | (optional, word, some arguments) => .method word arguments optional
    | (optional, word, none) => .member word optional)
    (.triple (meaning Operator.access?) name (.optional arguments))

def index : TokenParser Link :=
  .within "index" (.map .index
    (.delimited (delimiter .openBracket) (.call expression) (delimiter .closeBracket)))

/-- A primary expression with the links behind it. -/
def postfixed : TokenParser Expr :=
  .within "postfix" (.map (fun (base, links) => base.linked links)
    (.pair primary (.many (.choice [access, index]))))

/-! ## Operators -/

def unaryBody : TokenParser Expr :=
  .within "unary" (.choice
    [.map (fun (op, operand) => .unary op operand) (.pair (meaning Operator.unary?) (.call unary)),
     postfixed])

/-- Operands joined by operators, grouped to the left. -/
def joined (first : Expr) (rest : List (BinaryOp × Expr)) : Expr :=
  rest.foldl (fun left (op, right) => .binary op left right) first

/-- Operands with operators of one level between them. -/
def levelOf (level : Level) (operand : TokenParser Expr) : TokenParser Expr :=
  .within level.name (.map (fun (first, rest) => joined first rest)
    (.pair operand (.many (.pair (meaning (Operator.binaryAt? level)) operand))))

/-- The body of an expression: unary operands in the levels from the tightest to the loosest. -/
def expressionBody : TokenParser Expr :=
  .within "expression" (Level.all.foldr levelOf (.call unary))

end Production

def Expr.grammar : Grammar Token where
  Rule := Production
  rules := 2
  body
    | .expression => Production.expressionBody
    | .unary => Production.unaryBody

/-- The outcome of reading an expression that starts at the given index. -/
def Expr.parse (tokens : List Token) (start : Nat) : Outcome Token Expr :=
  Expr.grammar.parse (.call .expression) tokens start

end Trigger
