import Trigger.Text.Printable

/-!
# Quoted text

The written form of a text in messages and in canonical expressions: double quotes around it, a
backslash and a letter for the six characters that have such a name, `\u` with the code point in
braces for a character that is not printable, and every other character as it is.
-/

namespace Trigger.Text

/-- The digits of a number in lower-case hexadecimal, without leading zeros. -/
def hexadecimal (n : Nat) : List Char := Nat.toDigits 16 n

/-- The letter that stands for a character behind a backslash, if it has one. -/
def escapeName? (c : Char) : Option Char :=
  if c = '\x00' then some '0'
  else if c = '\t' then some 't'
  else if c = '\r' then some 'r'
  else if c = '\n' then some 'n'
  else if c = '"' then some '"'
  else if c = '\\' then some '\\'
  else none

/-- One character inside double quotes. -/
def quotedChar (c : Char) : List Char :=
  match escapeName? c with
  | some name => ['\\', name]
  | none =>
    if isPrintable c then [c]
    else ['\\', 'u', '\x7b'] ++ hexadecimal c.toNat ++ ['\x7d']

/-- The text in double quotes. -/
def quoted (cs : List Char) : List Char := '"' :: (cs.flatMap quotedChar ++ ['"'])

end Trigger.Text
