import Trigger.Number.Reading
import Trigger.Text.Blank
import Trigger.Text.Letter
import Trigger.Token.Basic

/-!
# The first token of a text

A rule looks for one kind of token at the start of a text.  It answers a `Lexeme`: the token, the
characters it was read from, and the rest.  `Lexeme.rules` lists the rules in the order in which
they are tried, and `first?` is the first answer.

* Comments come before operators, so `//` is no division.  A line comment ends in front of `\n` or
  `\r\n`; a carriage return that stands alone is no part of any comment, and there is no line
  comment in front of one.  Block comments do not nest.
* A string stands between two equal quotes.  Inside it a backslash escapes one of seven characters,
  and a line break does not occur.
* A number is digits, and possibly a point with more digits.  Its sign is an operator.
* A word starts with a letter, `_` or `$`, and goes on with these and with numerals.  The reserved
  words are keywords; every other word is a name.

Each rule is a definition by itself, since each reads only what its token consists of.
-/

namespace Trigger

/-- A token at the start of a text. -/
structure Lexeme where
  token : Token
  source : List Char
  rest : List Char
deriving DecidableEq

namespace Lexeme

/-- A rule for one kind of token. -/
abbrev Rule := List Char → Option Lexeme

/-! ## Blanks, line breaks and comments -/

/-- Whether a character separates tokens on one line. -/
def isGap (c : Char) : Bool := c = ' ' || c = '\t'

/-- A run of spaces and tabs. -/
def blanks? : Rule := fun cs =>
  match cs.takeWhile isGap with
  | [] => none
  | c :: run => some ⟨.blanks (String.ofList (c :: run)), c :: run, cs.dropWhile isGap⟩

def lineBreak? : Rule
  | '\n' :: rest => some ⟨.lineBreak, ['\n'], rest⟩
  | '\r' :: '\n' :: rest => some ⟨.lineBreak, ['\r', '\n'], rest⟩
  | _ => none

/-- The text up to the mark that closes a block comment, and the text behind the mark. -/
def untilClose? : List Char → Option (List Char × List Char)
  | [] => none
  | c :: cs =>
    match ['*', '/'].isPrefixOf? (c :: cs) with
    | some rest => some ([], rest)
    | none => (untilClose? cs).map fun (contents, rest) => (c :: contents, rest)

/-- A comment between marks. -/
def blockComment? : Rule := fun cs => do
  let inside ← ['/', '*'].isPrefixOf? cs
  let (contents, rest) ← untilClose? inside
  return ⟨.blockComment (String.ofList contents), ['/', '*'] ++ contents ++ ['*', '/'], rest⟩

/-- Whether a character may end a line. -/
def endsLine (c : Char) : Bool := c = '\n' || c = '\r'

/-- Whether a text is at its end or in front of the end of a line. -/
def atLineEnd : List Char → Bool
  | [] | '\n' :: _ | '\r' :: '\n' :: _ => true
  | _ => false

/-- A comment up to the end of its line. -/
def lineComment? : Rule := fun cs => do
  let inside ← ['/', '/'].isPrefixOf? cs
  let contents := inside.takeWhile (!endsLine ·)
  let rest := inside.dropWhile (!endsLine ·)
  if atLineEnd rest then
    return ⟨.lineComment (String.ofList (Text.trim contents)), ['/', '/'] ++ contents, rest⟩
  else none

def comment? : Rule := fun cs => blockComment? cs <|> lineComment? cs

/-! ## Literals -/

/-- The character that a letter behind a backslash stands for. -/
def unescape? (c : Char) : Option Char :=
  if c = 'n' then some '\n'
  else if c = 't' then some '\t'
  else if c = 'r' then some '\r'
  else if c = '0' then some '\x00'
  else if c = '\\' || c = '\'' || c = '"' then some c
  else none

/-- The contents of a string up to its closing quote, the characters that write them together with
the quote, and the text behind. -/
def stringBody? (quote : Char) : List Char → Option (List Char × List Char × List Char)
  | [] => none
  | c :: cs =>
    if c = quote then some ([], [c], cs)
    else if c = '\n' then none
    else if c = '\\' then
      match cs with
      | [] => none
      | d :: more => do
        let e ← unescape? d
        let (contents, source, rest) ← stringBody? quote more
        return (e :: contents, c :: d :: source, rest)
    else
      (stringBody? quote cs).map fun (contents, source, rest) => (c :: contents, c :: source, rest)

/-- A string between quotes of either kind. -/
def string? : Rule
  | [] => none
  | q :: cs =>
    if q = '"' || q = '\'' then
      (stringBody? q cs).map fun (contents, source, rest) =>
        ⟨.string (String.ofList contents), q :: source, rest⟩
    else none

/-- The digits behind a point, if a point with a digit behind it comes first. -/
def fraction? : List Char → Option (List Char × List Char)
  | '.' :: cs =>
    match Number.spanDigits cs with
    | ([], _) => none
    | (digits, rest) => some (digits, rest)
  | _ => none

/-- The digits of a number without a sign, those before and those behind its point, and the rest.
Without a point there are none behind it. -/
def digits? (cs : List Char) : Option (List Char × List Char × List Char) :=
  match Number.spanDigits cs with
  | ([], _) => none
  | (whole, cs) =>
    match fraction? cs with
    | some (fraction, rest) => some (whole, fraction, rest)
    | none => some (whole, [], cs)

/-- The characters of a number with the given digits. -/
def digitsSource (whole : List Char) : List Char → List Char
  | [] => whole
  | fraction => whole ++ '.' :: fraction

/-- A number without a sign. -/
def number? : Rule := fun cs =>
  (digits? cs).map fun (whole, fraction, rest) =>
    ⟨.number (Number.ofFixed whole fraction 0), digitsSource whole fraction, rest⟩

def literal? : Rule := fun cs => string? cs <|> number? cs

/-! ## Symbols and words -/

/-- An operator, the longest that fits. -/
def operator? : Rule := fun cs =>
  Operator.all.findSome? fun symbol =>
    (symbol.text.isPrefixOf? cs).map fun rest => ⟨.operator symbol, symbol.text, rest⟩

def delimiter? : Rule := fun cs =>
  Delimiter.all.findSome? fun symbol =>
    (symbol.text.isPrefixOf? cs).map fun rest => ⟨.delimiter symbol, symbol.text, rest⟩

/-- Whether a word may start with the character. -/
def startsWord (c : Char) : Bool := Text.isLetter c || c = '_' || c = '$'

/-- Whether a word may go on with the character. -/
def continuesWord (c : Char) : Bool := startsWord c || Text.isNumeral c

def ofWord (word : List Char) : Token :=
  match Keyword.ofText? word with
  | some keyword => .keyword keyword
  | none => .name (String.ofList word)

/-- A word, reserved or not. -/
def word? : Rule
  | [] => none
  | c :: cs =>
    if startsWord c then
      let word := c :: cs.takeWhile continuesWord
      some ⟨ofWord word, word, cs.dropWhile continuesWord⟩
    else none

/-! ## The rules in order -/

/-- The rules, in the order in which they are tried. -/
def rules : List Rule :=
  [blanks?, lineBreak?, comment?, literal?, operator?, delimiter?, word?]

/-- The first token of a text, if the text starts with one. -/
def first? (cs : List Char) : Option Lexeme := rules.findSome? (· cs)

end Lexeme

end Trigger
