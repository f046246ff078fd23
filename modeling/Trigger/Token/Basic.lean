import Trigger.Number.Notation
import Trigger.Text.Quoted
import Trigger.Token.Symbol

/-!
# Tokens

A token is a word, a symbol, a literal, or one of the pieces between them: a run of blanks, a line
break or a comment.  The pieces in between are kept as tokens so that positions are exact.  Only the
others are significant.
-/

namespace Trigger

/-- The tokens of trigger expressions. -/
inductive Token where
  | keyword (word : Keyword)
  | name (word : String)
  | operator (symbol : Operator)
  | delimiter (symbol : Delimiter)
  | number (value : Float)
  /-- A string literal, with its contents. -/
  | string (contents : String)
  /-- A run of spaces and tabs. -/
  | blanks (run : String)
  | lineBreak
  /-- A comment up to the end of its line, without the blanks around it. -/
  | lineComment (contents : String)
  /-- A comment between marks. -/
  | blockComment (contents : String)
deriving DecidableEq

namespace Token

/-- Whether the parser sees the token. -/
def isSignificant : Token → Bool
  | blanks _ | lineBreak | lineComment _ | blockComment _ => false
  | _ => true

def isComment : Token → Bool
  | lineComment _ | blockComment _ => true
  | _ => false

/-- The text that shows a token in messages. -/
def text : Token → List Char
  | keyword word => word.text
  | name word => word.toList
  | operator symbol => symbol.text
  | delimiter symbol => symbol.text
  | number value => Number.write .plain value
  | string contents => Text.quoted contents.toList
  | blanks run => run.toList
  | lineBreak => ['\n']
  | lineComment contents => ['/', '/'] ++ contents.toList
  | blockComment contents => ['/', '*'] ++ contents.toList ++ ['*', '/']

end Token

end Trigger
