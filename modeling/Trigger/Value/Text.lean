import Trigger.Number.Notation
import Trigger.Text.Quoted
import Trigger.Value.Basic

/-!
# Texts of values

`text` is what a value looks like to a user.  The infinities are words, an array shows its items,
and an object, a function and an object of the host show only what they are.  `described` shows the
kind of every part and the contents of objects, with strings in quotes.
-/

namespace Trigger.Value

/-- A text as characters. -/
def chars (s : String) : List Char := s.toList

def booleanText : Bool → List Char
  | true => chars "true"
  | false => chars "false"

/-- The text of a number, with words for the infinities. -/
def numberText (x : Float) : List Char :=
  match Number.parts x with
  | .infinity sign => Number.signText sign ++ chars "Infinity"
  | _ => Number.write .plain x

mutual

def text : Value → List Char
  | number value => numberText value
  | string contents => contents.toList
  | boolean value => booleanText value
  | null => chars "null"
  | absent => chars "undefined"
  | array items => '[' :: (textAll items ++ [']'])
  | object _ => chars "[object Object]"
  | function _ => chars "[function]"
  | host h => '[' :: (h.typeName.toList ++ [']'])
termination_by structural x => x

def textAll : List Value → List Char
  | [] => []
  | [v] => v.text
  | v :: vs => v.text ++ ',' :: textAll vs
termination_by structural x => x

end

mutual

def described : Value → List Char
  | number value => chars "Number(" ++ Number.write .full value ++ [')']
  | string contents => chars "String(" ++ Text.quoted contents.toList ++ [')']
  | boolean value => chars "Boolean(" ++ booleanText value ++ [')']
  | null => chars "Null"
  | absent => chars "Absent"
  | array items => chars "Array([" ++ describedAll items ++ [']', ')']
  | object entries => chars "Object(\x7b" ++ describedEntries entries ++ ['\x7d', ')']
  | function _ => chars "Function"
  | host h => chars "Host(" ++ h.typeName.toList ++ [')']
termination_by structural x => x

def describedAll : List Value → List Char
  | [] => []
  | [v] => v.described
  | v :: vs => v.described ++ ',' :: ' ' :: describedAll vs
termination_by structural x => x

def describedEntries : List (String × Value) → List Char
  | [] => []
  | [(key, v)] => Text.quoted key.toList ++ ':' :: ' ' :: v.described
  | (key, v) :: entries =>
    Text.quoted key.toList ++ ':' :: ' ' :: v.described ++ ',' :: ' ' :: describedEntries entries
termination_by structural x => x

end

end Trigger.Value
