/-!
# Settings

The settings of a cache, with their defaults: shapes are specialized, the subject is called `self`,
and failed parses are kept.

Settings are written out in JSON, as an object with a field for each of them.  In a string, the
quote, the backslash and the characters below a space are escaped, by a letter if there is one.
-/

namespace Trigger

/-- The settings of a cache. -/
structure Config where
  /-- Whether texts of a known shape are specialized. -/
  specialization : Bool := true
  subjectName : String := "self"
  keepsFailures : Bool := true
deriving DecidableEq, Repr

namespace Config

/-- The name that shapes use for the subject. -/
def shapeSubject : String := "self"

/-- Whether texts are specialized.  Shapes speak of `self`, so the subject must have this name. -/
def specializes (c : Config) : Bool := c.specialization && c.subjectName = shapeSubject

/-! ## Settings as text -/

/-- A truth value that is written out. -/
def truth : Bool → List Char
  | true => ['t', 'r', 'u', 'e']
  | false => ['f', 'a', 'l', 's', 'e']

/-- The letter that stands for a character in what is written out, if one does. -/
def letter? (c : Char) : Option Char :=
  if c = '"' || c = '\\' then some c
  else if c = '\x08' then some 'b'
  else if c = '\x0c' then some 'f'
  else if c = '\n' then some 'n'
  else if c = '\r' then some 'r'
  else if c = '\t' then some 't'
  else none

/-- A character in a string that is written out. -/
def escape (c : Char) : List Char :=
  match letter? c with
  | some e => ['\\', e]
  | none =>
    if c.toNat < 0x20 then
      ['\\', 'u', '0', '0', Nat.digitChar (c.toNat / 16), Nat.digitChar (c.toNat % 16)]
    else [c]

/-- A field that is written out: its key in quotes, and its value. -/
def fieldText (key : String) (value : List Char) : List Char :=
  '"' :: (key.toList ++ '"' :: ':' :: value)

/-- The settings as an object, with all of its fields and without spaces. -/
def asText (c : Config) : List Char :=
  '\x7b' :: (fieldText "specialization" (truth c.specialization) ++ ',' ::
    (fieldText "subject_name" ('"' :: (c.subjectName.toList.flatMap escape ++ ['"'])) ++ ',' ::
      (fieldText "memoize_parse_failures" (truth c.keepsFailures) ++ ['\x7d'])))

end Config

end Trigger
