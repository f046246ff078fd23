import Trigger.Token.Lexeme

/-!
# Scanning a text into tokens

A scan reads one token after the other and notes where each of them starts.  A position counts the
bytes of the text in UTF-8, the lines from one, and the characters of the line from one.  A scan
starts at a given position, so that a text may continue an earlier one, and it also answers where it
ended: behind the last token, or in front of the first character that no token starts with.

`significant` keeps the tokens that the parser sees.
-/

namespace Trigger

/-- A place in a text. -/
structure Position where
  /-- The bytes before it. -/
  offset : Nat
  /-- Its line, counted from one. -/
  line : Nat
  /-- Its character in the line, counted from one. -/
  column : Nat
deriving DecidableEq, Repr

namespace Position

def start : Position := ⟨0, 1, 1⟩

def next (p : Position) (c : Char) : Position :=
  if c = '\n' then ⟨p.offset + c.utf8Size, p.line + 1, 1⟩
  else ⟨p.offset + c.utf8Size, p.line, p.column + 1⟩

/-- The position behind a piece of text. -/
def after (p : Position) (cs : List Char) : Position := cs.foldl next p

end Position

/-- A token with the place it was read from. -/
structure Span where
  token : Token
  /-- The characters of the token. -/
  source : List Char
  start : Position
deriving DecidableEq

namespace Span

/-- The offset behind the token. -/
def stop (s : Span) : Nat := (s.start.after s.source).offset

end Span

/-- The place where a scan stops because no token starts there, and the text from there on. -/
structure ScanError where
  position : Position
  remaining : List Char
deriving DecidableEq

namespace ScanError

/-- The first characters of the text that is not a token, at most twenty. -/
def found (e : ScanError) : List Char := e.remaining.take 20

/-- The first line of the text that is not a token, without the blanks at its end. -/
def line (e : ScanError) : List Char := Text.trimEnd (e.remaining.takeWhile (· ≠ '\n'))

/-- The three reasons that the rules give, each with the line it speaks of. -/
def trail (e : ScanError) : String :=
  let line := String.ofList e.line
  let reason (rank name : String) :=
    rank ++ ": at line 1, in " ++ name ++ ":\n" ++ line ++ "\n^\n\n"
  reason "0" "TakeWhile1" ++ reason "1" "identifier" ++ reason "2" "Alt"

/-- The message about the place. -/
def message (e : ScanError) : String :=
  "Parse error: " ++ e.trail ++ " at position line: " ++ Nat.repr e.position.line
    ++ ", column: " ++ Nat.repr e.position.column ++ ", start: " ++ Nat.repr e.position.offset
    ++ ", end: " ++ Nat.repr (e.position.offset + 1)

end ScanError

namespace Token

/-- What a scan comes to: the tokens or the place where it stopped, and the position at its end. -/
abbrev Scanned := Except ScanError (List Span) × Position

/-- A scan that reads at most `fuel` tokens. -/
def scanWithin : Nat → Position → List Char → Scanned
  | _, p, [] => (.ok [], p)
  | 0, p, cs => (.error ⟨p, cs⟩, p)
  | fuel + 1, p, cs =>
    match Lexeme.first? cs with
    | none => (.error ⟨p, cs⟩, p)
    | some ⟨token, source, rest⟩ =>
      let (spans, last) := scanWithin fuel (p.after source) rest
      (spans.map (⟨token, source, p⟩ :: ·), last)

/-- The tokens of a text that starts at the given position.  Every token has a character, so a scan
reads no more tokens than the text has characters. -/
def scan (p : Position) (cs : List Char) : Scanned := scanWithin cs.length p cs

/-- The tokens of a text that stands alone. -/
def ofText (cs : List Char) : Except ScanError (List Span) := (scan .start cs).1

end Token

namespace Span

/-- The spans whose token the parser sees. -/
def significant (spans : List Span) : List Span := spans.filter (·.token.isSignificant)

end Span

end Trigger
