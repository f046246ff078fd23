import Trigger.Helper.Distance
import Trigger.Value.Text

/-!
# Calls and indices

Only functions answer calls.  A function of the standard helpers does its task, and every other one
is left to the world.  A method call goes to an object of the host whole; of every other value it
calls a member.

An index of an array or a string is a whole number, and then it is a position, or a string, and then
it names a member.  An index of an object names a member by its text.
-/

namespace Trigger.World

variable {s : Type}

/-- The answer of a task to arguments. -/
def perform (w : World s) (task : Task) (arguments : List Value) : StateM s Value :=
  match task with
  | .math f => pure (.number (f.apply arguments))
  | .distance origin => do
    match ← w.squaredBetween origin arguments with
    | some d => pure (.number d.sqrt)
    | none => pure .absent
  | .distanceSquared origin => do
    match ← w.squaredBetween origin arguments with
    | some d => pure (.number d)
    | none => pure .absent
  | .answer value => pure value
  | .countWithin units origin => do
    let count ← w.countWithin units origin (argument arguments 0)
    pure (.number (Number.ofNat count))
  | .random => do pure (.number (← w.random))

def apply (w : World s) (callee : Callable) (arguments : List Value) : StateM s Value :=
  match callee with
  | .foreign serial => w.call serial arguments
  | .helper _ _ task => w.perform task arguments

/-- The answer of a value to arguments. -/
def callValue (w : World s) (value : Value) (arguments : List Value) : StateM s Value :=
  match value with
  | .function callee => w.apply callee arguments
  | _ => pure .absent

/-- The answer of a value to a method call. -/
def callMethod (w : World s) (value : Value) (name : String) (arguments : List Value) :
    StateM s Value :=
  match value with
  | .host object =>
    match w.method? object with
    | some method => method name arguments
    | none => do w.callValue (← w.member object name) arguments
  | other => do w.callValue (← w.memberOf other name) arguments

/-- The position that a key stands for, if it stands for one. -/
def place? : Value → Option Nat
  | .number n => Number.whole? n
  | _ => none

/-- The name of the member that a key of an object stands for. -/
def memberName? : Value → Option String
  | .string name => some name
  | .number n => some (String.ofList (Value.number n).text)
  | .boolean b => some (String.ofList (Value.boolean b).text)
  | _ => none

/-- The part of a sequence under a key, where the parts by position are given. -/
def indexSequence (w : World s) (value : Value) (part : Nat → Option Value) (key : Value) :
    StateM s Value :=
  match place? key with
  | some n => pure ((part n).getD .absent)
  | none =>
    match key with
    | .string name => w.memberOf value name
    | _ => pure .absent

def index (w : World s) (value key : Value) : StateM s Value :=
  match value with
  | .array items => w.indexSequence value (items[·]?) key
  | .string contents =>
    w.indexSequence value (fun n => contents.toList[n]?.map fun c => .string c.toString) key
  | .object _ | .host _ =>
    match memberName? key with
    | some name => w.memberOf value name
    | none => pure .absent
  | _ => pure .absent

end Trigger.World
