import Trigger.Value.Basic

/-!
# Contexts

A context resolves names.  It is a list of groups of bindings, oldest first.  An eager group has its
bindings from the start.  A lazy group declares its names, and its bindings are produced when one of
these names is first resolved.

The owner of a name is the last group that declares it.  A name resolves to the binding of its owner
and to nothing else, so it resolves to nothing when the producer of its owner leaves it out.  What
has been produced is kept in a `Live` state beside the state of the world, under the place of the
group, and it is not produced again.
-/

namespace Trigger

/-- Values bound to names. -/
abbrev Bindings := Entries Value

/-- What a group binds, and when. -/
inductive GroupKind (s : Type) where
  /-- Bindings that are there from the start. -/
  | eager (bindings : Bindings)
  /-- Declared names, and the action that produces the bindings. -/
  | lazy (names : List String) (produce : StateM s Bindings)

/-- A named group of bindings. -/
structure Group (s : Type) where
  name : String
  kind : GroupKind s

namespace Group

variable {s : Type}

def names (g : Group s) : List String :=
  match g.kind with
  | .eager bindings => bindings.keys
  | .lazy names _ => names

/-- Whether the bindings of the group are produced on demand. -/
def isLazy (g : Group s) : Bool :=
  match g.kind with
  | .eager _ => false
  | .lazy _ _ => true

def declares (g : Group s) (name : String) : Bool := g.names.contains name

end Group

/-- The groups that resolve names, oldest first. -/
structure Context (s : Type) where
  groups : List (Group s)

/-- The state of a context in use: the state of the world, and the bindings that lazy groups have
produced so far, under the places of the groups. -/
structure Live (s : Type) where
  world : s
  /-- What has been produced. -/
  produced : List (Nat × Bindings)

namespace Live

variable {s : Type}

/-- The state in which nothing has been produced. -/
def fresh (world : s) : Live s := ⟨world, []⟩

/-- The bindings that the group at a place has produced, if it has. -/
def at? (l : Live s) (place : Nat) : Option Bindings := l.produced.lookup place

/-- An action on the state of the world alone. -/
def ofWorld {α : Type} (action : StateM s α) : StateM (Live s) α := fun l =>
  let (value, world) := action l.world
  (value, { l with world := world })

/-- The bindings of the group at a place, produced if they have not been. -/
def demand (place : Nat) (produce : StateM s Bindings) : StateM (Live s) Bindings := fun l =>
  match l.at? place with
  | some bindings => (bindings, l)
  | none =>
    let (bindings, world) := produce l.world
    (bindings, ⟨world, (place, bindings) :: l.produced⟩)

end Live

namespace Context

variable {s : Type}

def empty : Context s := ⟨[]⟩

/-! ## Building -/

/-- The context with a group behind the others. -/
def add (c : Context s) (name : String) (kind : GroupKind s) : Context s :=
  ⟨c.groups ++ [⟨name, kind⟩]⟩

def addHelpers (c : Context s) (name : String) (bindings : Bindings) : Context s :=
  c.add name (.eager bindings)

def addLazyHelpers (c : Context s) (name : String) (names : List String)
    (produce : StateM s Bindings) : Context s :=
  c.add name (.lazy names produce)

/-- The context with one value, under the name of its group. -/
def addValue (c : Context s) (name : String) (value : Value) : Context s :=
  c.addHelpers name [(name, value)]

/-- The context with one value that is produced on demand, under the name of its group. -/
def addLazyValue (c : Context s) (name : String) (produce : StateM s Value) : Context s :=
  c.addLazyHelpers name [name] (do return [(name, ← produce)])

/-! ## Resolving -/

/-- The last of the groups that declares a name, and its place, where the first group has the given
place. -/
def ownerFrom? (name : String) (place : Nat) : List (Group s) → Option (Nat × Group s)
  | [] => none
  | g :: groups =>
    match ownerFrom? name (place + 1) groups with
    | some owner => some owner
    | none => if g.declares name then some (place, g) else none

/-- The owner of a name, and its place. -/
def owner? (c : Context s) (name : String) : Option (Nat × Group s) := ownerFrom? name 0 c.groups

def resolve? (c : Context s) (name : String) : StateM (Live s) (Option Value) :=
  match c.owner? name with
  | none => pure none
  | some (place, g) =>
    match g.kind with
    | .eager bindings => pure (bindings.find? name)
    | .lazy _ produce => do return (← Live.demand place produce).find? name

/-- The value that a name resolves to, absent if it does not resolve. -/
def resolve (c : Context s) (name : String) : StateM (Live s) Value := do
  return (← c.resolve? name).getD .absent

def contains (c : Context s) (name : String) : Bool := (c.owner? name).isSome

/-- The declared names, in order and once each. -/
def names (c : Context s) : List String :=
  (Entries.ofList ((c.groups.flatMap Group.names).map fun name => (name, ()))).keys

/-- The last of the groups with a name, and its place, where the first group has the given place. -/
def namedFrom? (name : String) (place : Nat) : List (Group s) → Option (Nat × Group s)
  | [] => none
  | g :: groups =>
    match namedFrom? name (place + 1) groups with
    | some found => some found
    | none => if g.name = name then some (place, g) else none

/-- Whether the bindings of the last group with a name are there.  Those of an eager group always
are. -/
def isMaterialized? (c : Context s) (l : Live s) (name : String) : Option Bool :=
  (namedFrom? name 0 c.groups).map fun (place, g) =>
    match g.kind with
    | .eager _ => true
    | .lazy _ _ => (l.at? place).isSome

/-- The names of the lazy groups whose bindings are there, in order and once each. -/
def materialized (c : Context s) (l : Live s) : List String :=
  let named := c.groups.filter fun g => g.isLazy && c.isMaterialized? l g.name = some true
  (Entries.ofList (named.map fun g => (g.name, ()))).keys

end Context

end Trigger
