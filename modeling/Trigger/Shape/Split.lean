import Trigger.Text.Blank

/-!
# The top level of a text

The top level of a text is what stands outside its brackets and strings.  It is found on the
characters, in one pass that counts the open brackets, of whatever kind, and that knows whether it
is inside a string.  The pass fails if a bracket closes that is not open, or if brackets or a string
are open at the end.

* `splitTopLevel?` splits a text at the last place of the top level where an operator stands.
* `stripParens?` is the text inside a pair of parentheses that holds everything but blanks.
-/

namespace Trigger.Text

/-- What the pass knows in front of a character. -/
structure Nesting where
  depth : Nat
  /-- The quote that the string it is in ends with, if it is in one. -/
  quote : Option Char
  /-- Whether a backslash stands in front, inside a string. -/
  escaped : Bool
deriving DecidableEq, Repr

namespace Nesting

def start : Nesting := ⟨0, none, false⟩

def isQuote (c : Char) : Bool := c = '"' || c = '\''

def opens (c : Char) : Bool := c = '(' || c = '[' || c = '\x7b'

def closes (c : Char) : Bool := c = ')' || c = ']' || c = '\x7d'

/-- What the pass knows behind a character, unless a bracket closes that is not open. -/
def next? (l : Nesting) (c : Char) : Option Nesting :=
  match l.quote with
  | some q =>
    if l.escaped then some { l with escaped := false }
    else if c = '\\' then some { l with escaped := true }
    else if c = q then some { l with quote := none }
    else some l
  | none =>
    if isQuote c then some { l with quote := some c }
    else if opens c then some { l with depth := l.depth + 1 }
    else if closes c then (if l.depth = 0 then none else some { l with depth := l.depth - 1 })
    else some l

/-- Whether a character in this place is on the top level. -/
def isTop (l : Nesting) (c : Char) : Bool :=
  l.quote.isNone && l.depth = 0 && !isQuote c && !opens c && !closes c

/-- Whether a text may end here. -/
def isClosed (l : Nesting) : Bool := l.depth = 0 && l.quote.isNone

/-- What the pass knows behind a text. -/
def after? (l : Nesting) : List Char → Option Nesting
  | [] => some l
  | c :: cs => (l.next? c).bind (·.after? cs)

end Nesting

/-- Whether the brackets and the strings of a text are closed. -/
def isBalanced (cs : List Char) : Bool := (Nesting.start.after? cs).any Nesting.isClosed

/-- The split at the last place of the top level where the operator stands, with its first part
backwards.  `before` is the text that has been passed, backwards, and `found` the split at the last
place so far. -/
def splitFrom? (operator : List Char) (l : Nesting) (before : List Char)
    (found : Option (List Char × List Char)) : List Char → Option (List Char × List Char)
  | [] => if l.isClosed then found else none
  | c :: cs =>
    (l.next? c).bind fun next =>
      let here := if l.isTop c then operator.isPrefixOf? (c :: cs) else none
      let found := match here with
        | some rest => some (before, rest)
        | none => found
      splitFrom? operator next (c :: before) found cs

/-- The texts on both sides of the last place of the top level where the operator stands. -/
def splitTopLevel? (operator cs : List Char) : Option (List Char × List Char) :=
  (splitFrom? operator .start [] none cs).map fun (before, rest) => (before.reverse, rest)

/-- The text inside a pair of parentheses that holds everything but blanks. -/
def stripParens? (cs : List Char) : Option (List Char) :=
  match trim cs with
  | '(' :: rest =>
    if rest.getLast? = some ')' && isBalanced rest.dropLast then some rest.dropLast else none
  | _ => none

end Trigger.Text
