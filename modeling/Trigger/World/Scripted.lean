import Trigger.World.Call

/-!
# Scripted worlds

A scripted world is given by data.  It lists how each of its functions answers, what the members of
each of its objects are, and the words of its random numbers, which come round again at the end.  It
records every call and every access, in order, and nothing else changes in it.

A function may be asked by its arguments only, so a scripted world answers the same whenever it is
asked the same, random numbers apart.
-/

namespace Trigger

/-- The number from zero to below one that a random word makes: its upper 53 bits, in units of
`2 ^ -53`, which is exact. -/
def Number.uniform (word : UInt64) : Float := rounded .positive (word >>> 11).toNat (-53)

/-- How a scripted function answers. -/
inductive Reply where
  | constant (value : Value)
  | arguments
  /-- By its first argument, absent if there is none. -/
  | first
  /-- By the sum of the numbers of its arguments. -/
  | sum

namespace Reply

def answer (reply : Reply) (arguments : List Value) : Value :=
  match reply with
  | constant value => value
  | .arguments => .array arguments
  | first => arguments.head?.getD .absent
  | sum => .number (arguments.foldl (fun total v => total + v.toNumber) 0)

end Reply

/-- A scripted function. -/
structure ScriptedFunction where
  name : String
  reply : Reply

/-- A scripted object. -/
structure ScriptedObject where
  members : Entries Value
  /-- Its answers to method calls, whatever the arguments; without them methods are members. -/
  methods? : Option (Entries Value)

/-- What a scripted world records. -/
inductive Event where
  | call (name : String) (arguments : List Value)
  | get (typeName name : String)
  | method (typeName name : String) (arguments : List Value)
  | produce (group : String)

/-- The state of a scripted world. -/
structure Record where
  /-- What has happened, in order. -/
  events : Array Event
  drawn : Nat

namespace Record

def empty : Record := ⟨#[], 0⟩

def note (event : Event) : StateM Record Unit :=
  modify fun r => { r with events := r.events.push event }

end Record

/-- The data of a scripted world.  Functions and objects are numbered in order. -/
structure Script where
  functions : Array ScriptedFunction
  objects : Array ScriptedObject
  words : Array UInt64

namespace Script

def empty : Script := ⟨#[], #[], #[]⟩

/-- The word of the random number with the given index. -/
def word (script : Script) (index : Nat) : UInt64 :=
  (script.words[index % script.words.size]?).getD 0

def call (script : Script) (serial : Nat) (arguments : List Value) : StateM Record Value :=
  match script.functions[serial]? with
  | some f => do
    Record.note (.call f.name arguments)
    return f.reply.answer arguments
  | none => pure .absent

def member (script : Script) (object : HostObject) (name : String) : StateM Record Value := do
  Record.note (.get object.typeName name)
  return ((script.objects[object.serial]?.bind (·.members.find? name))).getD .absent

def method? (script : Script) (object : HostObject) :
    Option (String → List Value → StateM Record Value) :=
  (script.objects[object.serial]?.bind (·.methods?)).map fun methods name arguments => do
    Record.note (.method object.typeName name arguments)
    return (methods.find? name).getD .absent

def random (script : Script) : StateM Record Float := do
  let r ← get
  set { r with drawn := r.drawn + 1 }
  return Number.uniform (script.word r.drawn)

def world (script : Script) : World Record where
  call := script.call
  member := script.member
  method? := script.method?
  random := script.random

end Script

end Trigger
