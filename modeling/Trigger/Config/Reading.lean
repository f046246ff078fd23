import Trigger.Config.Basic
import Trigger.Number.Reading

/-!
# Reading settings

Settings are written in JSON, as an object whose fields may be left out, or as a list of at most
three values in the order of the fields.  Fields that are not known are skipped, whatever their
values are.  A known field may occur once.

The text is read from left to right, and the first thing that is wrong decides the error.

* `endsEarly`: the text ends where it must go on.
* `malformed`: the text is no JSON from some place on, or more text follows.
* `unfit`: the text may be JSON, but a value has a wrong type or a known field occurs twice.

A value in the place of a setting is read as far as it takes to see its type, so it may still be
malformed.  A number there is malformed if it is too large to be one.  A value that is skipped is
checked for its form only: a pair of escapes may be any two words, and a number may have any size.
-/

namespace Trigger

/-- Why settings cannot be had. -/
inductive ConfigError where
  /-- There is no text. -/
  | unreadable
  | endsEarly
  | malformed
  /-- The text does not give settings. -/
  | unfit
deriving DecidableEq, Repr

namespace Config

/-- Reads something from the front of a text. -/
abbrev Reader (α : Type) := StateT (List Char) (Except ConfigError) α

namespace Reader

def fail {α : Type} (e : ConfigError) : Reader α := fun _ => .error e

/-- The next character, if there is one.  It stays. -/
def peek? : Reader (Option Char) := fun cs => .ok (cs.head?, cs)

/-- The next character.  It stays. -/
def peek : Reader Char := fun cs =>
  match cs with
  | [] => .error .endsEarly
  | c :: _ => .ok (c, cs)

/-- Takes the next character away. -/
def next : Reader Char := fun cs =>
  match cs with
  | [] => .error .endsEarly
  | c :: rest => .ok (c, rest)

/-- Whether a character may stand between the parts of JSON. -/
def isSpace (c : Char) : Bool := c = ' ' || c = '\n' || c = '\t' || c = '\r'

def skipSpace : Reader Unit := fun cs => .ok ((), cs.dropWhile isSpace)

/-- The next character that is no space.  It stays. -/
def peekPart : Reader Char := do
  skipSpace
  peek

/-- Takes the given characters away. -/
def expect : List Char → Reader Unit
  | [] => pure ()
  | c :: cs => do
    let found ← next
    if found = c then expect cs else fail .malformed

/-- Takes digits away. -/
def digits : Reader (List Char) := fun cs => .ok (Number.spanDigits cs)

/-! ## Strings -/

def hexValue? (c : Char) : Option Nat :=
  if c.isDigit then some (c.toNat - '0'.toNat)
  else if 'a' ≤ c && c ≤ 'f' then some (c.toNat - 'a'.toNat + 10)
  else if 'A' ≤ c && c ≤ 'F' then some (c.toNat - 'A'.toNat + 10)
  else none

/-- The bytes of a text in UTF-8. -/
def byteCount (cs : List Char) : Nat := cs.foldr (fun c n => c.utf8Size + n) 0

/-- The word that four hexadecimal digits write.  Four bytes must be there. -/
def word : Reader Nat := fun cs =>
  if byteCount cs < 4 then .error .endsEarly
  else
    match cs with
    | a :: b :: c :: d :: rest =>
      match hexValue? a, hexValue? b, hexValue? c, hexValue? d with
      | some a, some b, some c, some d => .ok (((a * 16 + b) * 16 + c) * 16 + d, rest)
      | _, _, _, _ => .error .malformed
    | _ => .error .malformed

/-- Whether a word is the first one of a pair. -/
def isHighWord (w : Nat) : Bool := 0xD800 ≤ w && w ≤ 0xDBFF

/-- Whether a word is the second one of a pair. -/
def isLowWord (w : Nat) : Bool := 0xDC00 ≤ w && w ≤ 0xDFFF

/-- The character behind `\u`, for which a pair of words may stand. -/
def wideChar : Reader Char := do
  let first ← word
  if isLowWord first then fail .malformed
  else if isHighWord first then
    expect ['\\', 'u']
    let second ← word
    if isLowWord second then
      return Char.ofNat ((first - 0xD800) * 0x400 + (second - 0xDC00) + 0x10000)
    else fail .malformed
  else return Char.ofNat first

/-- The character that a letter behind a backslash stands for, `\u` apart. -/
def shortEscape? (c : Char) : Option Char :=
  if c = '"' || c = '\\' || c = '/' then some c
  else if c = 'b' then some '\x08'
  else if c = 'f' then some '\x0c'
  else if c = 'n' then some '\n'
  else if c = 'r' then some '\r'
  else if c = 't' then some '\t'
  else none

/-- The rest of a string behind its opening quote, where what follows `\u` is read as given. -/
def stringBody (wide : Reader Char) : Nat → Reader (List Char)
  | 0 => fail .endsEarly
  | fuel + 1 => do
    let c ← next
    if c = '"' then return []
    else if c = '\\' then
      let e ← next
      match shortEscape? e with
      | some d => return d :: (← stringBody wide fuel)
      | none =>
        if e = 'u' then
          let d ← wide
          return d :: (← stringBody wide fuel)
        else fail .malformed
    else if c.toNat < 0x20 then fail .malformed
    else return c :: (← stringBody wide fuel)

/-- The number of characters that are left. -/
def remaining : Reader Nat := fun cs => .ok (cs.length, cs)

/-- The contents of a string behind its opening quote. -/
def string : Reader String := do
  return String.ofList (← stringBody wideChar ((← remaining) + 1))

/-- Skips a string behind its opening quote. -/
def skipString : Reader Unit := do
  let anyWord : Reader Char := do
    let _ ← word
    return ' '
  let _ ← stringBody anyWord ((← remaining) + 1)

/-! ## Numbers -/

/-- The largest significand that is kept of a number. -/
def significandLimit : Nat := Nat.pow 2 64

/-- The significand with as many further digits as keep it below the limit, and their number. -/
def extend (significand : Nat) : List Char → Nat × Nat
  | [] => (significand, 0)
  | c :: cs =>
    let longer := significand * 10 + Number.digitValue c
    if longer < significandLimit then
      let (result, used) := extend longer cs
      (result, used + 1)
    else (significand, 0)

/-- Whether a number with the given digits and power of ten is too large. -/
def isTooLarge (whole fraction : List Char) (power : Int) : Bool :=
  let (kept, usedWhole) := extend 0 whole
  let (significand, usedFraction) := extend kept fraction
  let power := power + whole.length - usedWhole - usedFraction
  significand != 0
    && (308 < power || (0 ≤ power && (Number.ofNat significand * Number.decimal 1 power).isInf))

def power : Reader Int := do
  let sign ← peek?
  let isSigned := sign = some '+' || sign = some '-'
  if isSigned then let _ ← next
  let first ← peek
  if first.isDigit then
    let ds ← digits
    let size : Int := Number.ofDigits ds
    return if sign = some '-' then -size else size
  else fail .malformed

def fraction : Reader (List Char) := do
  let first ← peek
  if first.isDigit then digits else fail .malformed

/-- The digits before a point: no zero stands in front of another digit. -/
def whole : Reader (List Char) := do
  let first ← next
  let ds ← digits
  if first.isDigit && (first ≠ '0' || ds.isEmpty) then return first :: ds else fail .malformed

/-- Reads a number behind its sign, and fails if it is too large. -/
def number : Reader Unit := do
  let ws ← whole
  let fs ← if (← peek?) = some '.' then do
      let _ ← next
      fraction
    else pure []
  let mark ← peek?
  let p ← if mark = some 'e' || mark = some 'E' then do
      let _ ← next
      power
    else pure 0
  if isTooLarge ws fs p then fail .malformed

/-- Reads something, where the end of the text is an error of form. -/
def strictly {α : Type} (reader : Reader α) : Reader α := fun cs =>
  match reader cs with
  | .error .endsEarly => .error .malformed
  | result => result

/-- Skips a number behind its sign. -/
def skipNumber : Reader Unit := strictly do
  let _ ← whole
  if (← peek?) = some '.' then
    let _ ← next
    let _ ← fraction
  let mark ← peek?
  if mark = some 'e' || mark = some 'E' then
    let _ ← next
    let _ ← power

/-! ## Values -/

/-- Reads a value that is no setting as far as its type, and fails. -/
def unfit {α : Type} : Reader α := do
  let c ← peek
  if c = 'n' then expect ['n', 'u', 'l', 'l']
  else if c = 't' then expect ['t', 'r', 'u', 'e']
  else if c = 'f' then expect ['f', 'a', 'l', 's', 'e']
  else if c = '-' then
    let _ ← next
    number
  else if c.isDigit then number
  else if c = '"' then
    let _ ← next
    let _ ← string
  else if c = '[' || c = '\x7b' then pure ()
  else fail .malformed
  fail .unfit

def boolean : Reader Bool := do
  let c ← peekPart
  if c = 't' then
    expect ['t', 'r', 'u', 'e']
    return true
  else if c = 'f' then
    expect ['f', 'a', 'l', 's', 'e']
    return false
  else unfit

/-- A string in the place of a value. -/
def text : Reader String := do
  let c ← peekPart
  if c = '"' then
    let _ ← next
    string
  else unfit

def colon : Reader Unit := do
  if (← peekPart) = ':' then let _ ← next else fail .malformed

mutual

/-- Skips a value.  A value inside a list or an object is two calls further down. -/
def skipValue : Nat → Reader Unit
  | 0 => fail .endsEarly
  | fuel + 1 => do
    let c ← peekPart
    if c = 'n' then expect ['n', 'u', 'l', 'l']
    else if c = 't' then expect ['t', 'r', 'u', 'e']
    else if c = 'f' then expect ['f', 'a', 'l', 's', 'e']
    else if c = '-' then
      let _ ← next
      skipNumber
    else if c.isDigit then skipNumber
    else if c = '"' then
      let _ ← next
      skipString
    else if c = '[' then
      let _ ← next
      if (← peekPart) = ']' then let _ ← next else skipItems fuel
    else if c = '\x7b' then
      let _ ← next
      if (← peekPart) = '\x7d' then let _ ← next else skipFields fuel
    else fail .malformed

/-- Skips the items of a list and its end. -/
def skipItems : Nat → Reader Unit
  | 0 => fail .endsEarly
  | fuel + 1 => do
    skipValue fuel
    let c ← peekPart
    if c = ',' then
      let _ ← next
      skipItems fuel
    else if c = ']' then let _ ← next
    else fail .malformed

/-- Skips the fields of an object and its end. -/
def skipFields : Nat → Reader Unit
  | 0 => fail .endsEarly
  | fuel + 1 => do
    if (← peekPart) ≠ '"' then fail .malformed
    let _ ← next
    skipString
    colon
    skipValue fuel
    let c ← peekPart
    if c = ',' then
      let _ ← next
      skipFields fuel
    else if c = '\x7d' then let _ ← next
    else fail .malformed

end

end Reader

/-! ## Settings -/

/-- Settings of which some may not have been read. -/
structure Draft where
  specialization : Option Bool := none
  subjectName : Option String := none
  keepsFailures : Option Bool := none

namespace Draft

/-- The settings, with the defaults for what was not read. -/
def config (d : Draft) : Config where
  specialization := d.specialization.getD true
  subjectName := d.subjectName.getD Config.shapeSubject
  keepsFailures := d.keepsFailures.getD true

end Draft

namespace Reader

/-- Fails if a field has been read before. -/
def once {α : Type} (known : Option α) : Reader Unit :=
  if known.isSome then fail .unfit else pure ()

/-- The draft with the field under a key, behind the key. -/
def field (d : Draft) (key : String) : Reader Draft := do
  if key = "specialization" then
    once d.specialization
    colon
    return { d with specialization := some (← boolean) }
  else if key = "subject_name" then
    once d.subjectName
    colon
    return { d with subjectName := some (← text) }
  else if key = "memoize_parse_failures" then
    once d.keepsFailures
    colon
    return { d with keepsFailures := some (← boolean) }
  else
    colon
    skipValue (2 * (← remaining) + 2)
    return d

/-- The draft with the fields of an object, from a key on, and the end of the object. -/
def fields (d : Draft) : Nat → Reader Draft
  | 0 => fail .endsEarly
  | fuel + 1 => do
    if (← peekPart) ≠ '"' then fail .malformed
    let _ ← next
    let key ← string
    let d ← field d key
    let c ← peekPart
    if c = ',' then
      let _ ← next
      fields d fuel
    else if c = '\x7d' then
      let _ ← next
      return d
    else fail .malformed

def object : Reader Draft := do
  if (← peekPart) = '\x7d' then
    let _ ← next
    return {}
  else fields {} ((← remaining) + 1)

/-- Whether another item of a list follows.  The comma in front of it is taken away. -/
def hasItem (isFirst : Bool) : Reader Bool := do
  let c ← peekPart
  if c = ']' then return false
  else if isFirst then return true
  else if c = ',' then
    let _ ← next
    if (← peekPart) = ']' then fail .malformed else return true
  else fail .malformed

def endOfList : Reader Unit := do
  if (← peekPart) = ']' then let _ ← next else fail .malformed

/-- Settings as a list, behind its opening bracket. -/
def list : Reader Draft := do
  if !(← hasItem true) then
    endOfList
    return {}
  let d : Draft := { specialization := some (← boolean) }
  if !(← hasItem false) then
    endOfList
    return d
  let d := { d with subjectName := some (← text) }
  if !(← hasItem false) then
    endOfList
    return d
  let d := { d with keepsFailures := some (← boolean) }
  endOfList
  return d

/-- Settings, and nothing behind them. -/
def config : Reader Config := do
  let c ← peekPart
  let d ← if c = '\x7b' then do
      let _ ← next
      object
    else if c = '[' then do
      let _ ← next
      list
    else unfit
  skipSpace
  match ← peek? with
  | some _ => fail .malformed
  | none => return d.config

end Reader

def ofText (cs : List Char) : Except ConfigError Config :=
  match Reader.config cs with
  | .ok (config, _) => .ok config
  | .error e => .error e

/-- The settings that a file gives, by its contents if it could be read. -/
def ofFile (contents : Option (List Char)) : Except ConfigError Config :=
  match contents with
  | some cs => ofText cs
  | none => .error .unreadable

end Config

end Trigger
