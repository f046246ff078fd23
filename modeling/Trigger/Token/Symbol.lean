/-!
# Symbols and reserved words

The operators, the delimiters and the four reserved words of trigger expressions, each with the text
that writes it.  `Operator.all` lists the longer operators first, so that the first one whose text
stands in front of a text is the longest.
-/

namespace Trigger

/-- The operators. -/
inductive Operator where
  | optionalDot | equal | notEqual | greaterEqual | lessEqual | and | or
  | dot | greater | less | plus | minus | times | divide | modulo | not
deriving DecidableEq, Repr

namespace Operator

/-- The operators, those of two characters first. -/
def all : List Operator :=
  [optionalDot, equal, notEqual, greaterEqual, lessEqual, and, or,
   dot, greater, less, plus, minus, times, divide, modulo, not]

def text : Operator → List Char
  | optionalDot => ['?', '.']
  | equal => ['=', '=']
  | notEqual => ['!', '=']
  | greaterEqual => ['>', '=']
  | lessEqual => ['<', '=']
  | and => ['&', '&']
  | or => ['|', '|']
  | dot => ['.']
  | greater => ['>']
  | less => ['<']
  | plus => ['+']
  | minus => ['-']
  | times => ['*']
  | divide => ['/']
  | modulo => ['%']
  | not => ['!']

def ofText? (cs : List Char) : Option Operator := all.find? (·.text = cs)

end Operator

/-- The brackets and the marks between list items. -/
inductive Delimiter where
  | openBrace | closeBrace | openParen | closeParen | openBracket | closeBracket | comma | colon
deriving DecidableEq, Repr

namespace Delimiter

def all : List Delimiter :=
  [openBrace, closeBrace, openParen, closeParen, openBracket, closeBracket, comma, colon]

def text : Delimiter → List Char
  | openBrace => ['\x7b']
  | closeBrace => ['\x7d']
  | openParen => ['(']
  | closeParen => [')']
  | openBracket => ['[']
  | closeBracket => [']']
  | comma => [',']
  | colon => [':']

end Delimiter

/-- The reserved words. -/
inductive Keyword where
  | true | false | null | undefined
deriving DecidableEq, Repr

namespace Keyword

def all : List Keyword := [true, false, null, undefined]

def text : Keyword → List Char
  | true => ['t', 'r', 'u', 'e']
  | false => ['f', 'a', 'l', 's', 'e']
  | null => ['n', 'u', 'l', 'l']
  | undefined => ['u', 'n', 'd', 'e', 'f', 'i', 'n', 'e', 'd']

def ofText? (cs : List Char) : Option Keyword := all.find? (·.text = cs)

end Keyword

end Trigger
