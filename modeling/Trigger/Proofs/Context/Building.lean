import Trigger.Proofs.Cache.History

/-!
# The owner of a name

A context is built by additions, one group each.  The owner of a name is the last addition that
declares it, and a group is known by the last addition under its name: both are `LastAt`.  A context
looks for them from the end, and what it finds are exactly these (`owner?_build`, `named?_build`).
-/

namespace Trigger

variable {s α : Type}

/-! ## The last of a kind -/

/-- The element at the place has the property, and none behind it has. -/
def LastAt (property : α → Prop) (list : List α) (place : Nat) (a : α) : Prop :=
  list[place]? = some a ∧ property a ∧
    ∀ later b, place < later → list[later]? = some b → ¬ property b

namespace LastAt

variable {property : α → Prop} {list : List α} {place place' : Nat} {a a' : α}

theorem unique (last : LastAt property list place a) (last' : LastAt property list place' a') :
    place = place' ∧ a = a' := by
  obtain ⟨found, holds, behind⟩ := last
  obtain ⟨found', holds', behind'⟩ := last'
  obtain rfl : place = place' := by
    rcases Nat.lt_trichotomy place place' with before | same | after
    · exact absurd holds' (behind place' a' before found')
    · exact same
    · exact absurd holds (behind' place a after found)
  exact ⟨rfl, Option.some.inj (found.symm.trans found')⟩

theorem head (holds : property a) (none : ∀ b ∈ list, ¬ property b) :
    LastAt property (a :: list) 0 a := by
  refine ⟨rfl, holds, fun later b behind found => ?_⟩
  obtain ⟨later, rfl⟩ : ∃ n, later = n + 1 := ⟨later - 1, by omega⟩
  exact none b (List.mem_of_getElem? found)

theorem tail (last : LastAt property list place a) (first : α) :
    LastAt property (first :: list) (place + 1) a := by
  obtain ⟨found, holds, behind⟩ := last
  refine ⟨found, holds, fun later b after found => ?_⟩
  obtain ⟨later, rfl⟩ : ∃ n, later = n + 1 := ⟨later - 1, by omega⟩
  exact behind later b (by omega) found

theorem mem (last : LastAt property list place a) : a ∈ list ∧ property a :=
  ⟨List.mem_of_getElem? last.1, last.2.1⟩

end LastAt

/-- The last element with a property and its place, where the first one has the given place. -/
def lastFrom? (p : α → Bool) (start : Nat) : List α → Option (Nat × α)
  | [] => none
  | a :: list =>
    match lastFrom? p (start + 1) list with
    | some found => some found
    | none => if p a then some (start, a) else none

section
variable {p : α → Bool} {list : List α}

theorem lastFrom?_eq_none_iff {start : Nat} :
    lastFrom? p start list = none ↔ ∀ a ∈ list, ¬ p a = true := by
  induction list generalizing start with
  | nil => simp [lastFrom?]
  | cons a list ih =>
      rw [lastFrom?, List.forall_mem_cons, ← @ih (start + 1)]
      cases lastFrom? p (start + 1) list <;> simp

theorem lastAt_of_lastFrom? {start place : Nat} {a : α}
    (found : lastFrom? p start list = some (place, a)) :
    ∃ n, place = start + n ∧ LastAt (p · = true) list n a := by
  induction list generalizing start with
  | nil => cases found
  | cons first list ih =>
      rw [lastFrom?] at found
      split at found
      · rename_i later
        cases found
        obtain ⟨n, rfl, last⟩ := ih later
        exact ⟨n + 1, by omega, last.tail first⟩
      · rename_i none
        obtain ⟨holds, same⟩ := Option.ite_none_right_eq_some.mp found
        cases same
        exact ⟨0, rfl, .head holds (lastFrom?_eq_none_iff.mp none)⟩

theorem lastFrom?_eq_some_iff {place : Nat} {a : α} :
    lastFrom? p 0 list = some (place, a) ↔ LastAt (p · = true) list place a := by
  constructor
  · intro found
    obtain ⟨n, rfl, last⟩ := lastAt_of_lastFrom? found
    rwa [Nat.zero_add]
  · intro last
    cases found : lastFrom? p 0 list with
    | none => exact absurd last.mem.2 (lastFrom?_eq_none_iff.mp found a last.mem.1)
    | some pair =>
        obtain ⟨n, same, last'⟩ := lastAt_of_lastFrom? found
        obtain ⟨rfl, rfl⟩ := last.unique last'
        rw [← Nat.zero_add place, ← same]

end

theorem lastFrom?_map {β : Type} (f : α → β) (p : β → Bool) (start : Nat) (list : List α) :
    lastFrom? p start (list.map f) =
      (lastFrom? (p ∘ f) start list).map fun (place, a) => (place, f a) := by
  induction list generalizing start with
  | nil => rfl
  | cons a list ih =>
      simp only [List.map_cons, lastFrom?, ih]
      cases lastFrom? (p ∘ f) (start + 1) list <;> simp [apply_ite]

/-- The keys of a list of entries are those that stand in it. -/
theorem Entries.mem_keys_ofList {key : String} {list : List (String × α)} :
    key ∈ (ofList list).keys ↔ key ∈ list.map (·.1) := by
  suffices ∀ entries : Entries α,
      key ∈ (list.foldl (fun entries entry => insert entry.1 entry.2 entries) entries).keys ↔
        key ∈ entries.keys ∨ key ∈ list.map (·.1) by
    exact (this []).trans (by simp [keys])
  induction list with
  | nil => simp
  | cons entry list ih =>
      intro entries
      rw [List.foldl_cons, ih, mem_keys_insert, List.map_cons, List.mem_cons, or_assoc,
        or_left_comm]

/-! ## Additions -/

/-- What is added to a context while it is built. -/
inductive Addition (s : Type) where
  | helpers (group : String) (bindings : Bindings)
  | value (name : String) (bound : Value)
  | lazyHelpers (group : String) (names : List String) (produce : StateM s Bindings)
  | lazyValue (name : String) (produce : StateM s Value)

namespace Addition

/-- The context with the addition. -/
def addTo (c : Context s) : Addition s → Context s
  | .helpers group bindings => c.addHelpers group bindings
  | .value name bound => c.addValue name bound
  | .lazyHelpers group names produce => c.addLazyHelpers group names produce
  | .lazyValue name produce => c.addLazyValue name produce

/-- The name of its group. -/
def group : Addition s → String
  | .helpers group _ => group
  | .value name _ => name
  | .lazyHelpers group _ _ => group
  | .lazyValue name _ => name

/-- The names that it declares. -/
def names : Addition s → List String
  | .helpers _ bindings => bindings.keys
  | .value name _ => [name]
  | .lazyHelpers _ names _ => names
  | .lazyValue name _ => [name]

/-- Its producer, if it is lazy. -/
def produce? : Addition s → Option (StateM s Bindings)
  | .helpers _ _ => none
  | .value _ _ => none
  | .lazyHelpers _ _ produce => some produce
  | .lazyValue name produce => some do return [(name, ← produce)]

/-- The bindings that are there from the start. -/
def bindings : Addition s → Bindings
  | .helpers _ bindings => bindings
  | .value name bound => [(name, bound)]
  | .lazyHelpers _ _ _ => []
  | .lazyValue _ _ => []

/-- The group that it makes. -/
def toGroup (a : Addition s) : Group s :=
  match a.produce? with
  | some produce => ⟨a.group, .lazy a.names produce⟩
  | none => ⟨a.group, .eager a.bindings⟩

theorem groups_addTo (c : Context s) (a : Addition s) :
    (addTo c a).groups = c.groups ++ [a.toGroup] := by
  cases a <;> rfl

theorem names_toGroup (a : Addition s) : a.toGroup.names = a.names := by
  cases a <;> rfl

theorem name_toGroup (a : Addition s) : a.toGroup.name = a.group := by
  cases a <;> rfl

end Addition

/-- The addition at the place owns the name: it is the last one that declares it. -/
def Owns (additions : List (Addition s)) (name : String) : Nat → Addition s → Prop :=
  LastAt (name ∈ ·.names) additions

namespace Context

/-- The context that additions build. -/
def build (additions : List (Addition s)) : Context s := additions.foldl Addition.addTo .empty

theorem groups_build (additions : List (Addition s)) :
    (build additions).groups = additions.map Addition.toGroup := by
  suffices ∀ c : Context s, (additions.foldl Addition.addTo c).groups =
      c.groups ++ additions.map Addition.toGroup from this .empty
  induction additions with
  | nil => simp
  | cons a additions ih =>
      intro c
      rw [List.foldl_cons, ih, Addition.groups_addTo, List.map_cons, List.append_assoc,
        List.singleton_append]

theorem ownerFrom?_eq (name : String) (start : Nat) (groups : List (Group s)) :
    ownerFrom? name start groups = lastFrom? (·.declares name) start groups := by
  induction groups generalizing start with
  | nil => rfl
  | cons g groups ih =>
      simp only [ownerFrom?, lastFrom?, ih]
      cases lastFrom? (·.declares name) (start + 1) groups <;> rfl

theorem namedFrom?_eq (name : String) (start : Nat) (groups : List (Group s)) :
    namedFrom? name start groups = lastFrom? (fun g => decide (g.name = name)) start groups := by
  induction groups generalizing start with
  | nil => rfl
  | cons g groups ih =>
      simp only [namedFrom?, lastFrom?, ih, decide_eq_true_eq]
      cases lastFrom? (fun g => decide (g.name = name)) (start + 1) groups <;> rfl

section
variable {additions : List (Addition s)} {name : String} {place : Nat} {a : Addition s}

/-- The owner of a name is the last addition that declares it. -/
theorem owner?_build (owns : Owns additions name place a) :
    (build additions).owner? name = some (place, a.toGroup) := by
  have found : lastFrom? ((·.declares name) ∘ Addition.toGroup) 0 additions = some (place, a) := by
    rw [lastFrom?_eq_some_iff]
    simpa [Owns, Group.declares, Addition.names_toGroup] using owns
  rw [owner?, groups_build, ownerFrom?_eq, lastFrom?_map, found]
  rfl

theorem owner?_build_eq_none (nowhere : ∀ a ∈ additions, name ∉ a.names) :
    (build additions).owner? name = none := by
  have found : lastFrom? ((·.declares name) ∘ Addition.toGroup) 0 additions = none := by
    rw [lastFrom?_eq_none_iff]
    simpa [Group.declares, Addition.names_toGroup] using nowhere
  rw [owner?, groups_build, ownerFrom?_eq, lastFrom?_map, found]
  rfl

theorem owns_iff : Owns additions name place a ↔
    lastFrom? (fun a => decide (name ∈ a.names)) 0 additions = some (place, a) := by
  rw [lastFrom?_eq_some_iff]
  simp [Owns]

/-- Where a name is declared at all, it has an owner. -/
theorem exists_owns (declared : ∃ a ∈ additions, name ∈ a.names) :
    ∃ place a, Owns additions name place a := by
  cases found : lastFrom? (fun a : Addition s => decide (name ∈ a.names)) 0 additions with
  | none =>
      obtain ⟨a, mem, declares⟩ := declared
      exact absurd (decide_eq_true declares) (lastFrom?_eq_none_iff.mp found a mem)
  | some pair => exact ⟨pair.1, pair.2, owns_iff.mpr found⟩

/-- A context contains the names that are declared. -/
theorem contains_build :
    (build additions).contains name = true ↔ ∃ a ∈ additions, name ∈ a.names := by
  by_cases declared : ∃ a ∈ additions, name ∈ a.names
  · obtain ⟨place, a, owns⟩ := exists_owns declared
    simp [contains, owner?_build owns, declared]
  · have nowhere : ∀ a ∈ additions, name ∉ a.names := fun a mem here => declared ⟨a, mem, here⟩
    simp [contains, owner?_build_eq_none nowhere, declared]

/-- What a context knows a name of groups by is the last addition with the name. -/
theorem named?_build (last : LastAt (·.group = name) additions place a) :
    namedFrom? name 0 (build additions).groups = some (place, a.toGroup) := by
  have found : lastFrom? ((fun g => decide (g.name = name)) ∘ Addition.toGroup) 0 additions =
      some (place, a) := by
    rw [lastFrom?_eq_some_iff]
    simpa [Addition.name_toGroup] using last
  rw [groups_build, namedFrom?_eq, lastFrom?_map, found]
  rfl

theorem named?_build_eq_none (nowhere : ∀ a ∈ additions, a.group ≠ name) :
    namedFrom? name 0 (build additions).groups = none := by
  have found : lastFrom? ((fun g => decide (g.name = name)) ∘ Addition.toGroup) 0 additions =
      none := by
    rw [lastFrom?_eq_none_iff]
    simpa [Addition.name_toGroup] using nowhere
  rw [groups_build, namedFrom?_eq, lastFrom?_map, found]
  rfl

end

/-- The names of a context are those that are declared. -/
theorem mem_names_build {additions : List (Addition s)} {name : String} :
    name ∈ (build additions).names ↔ ∃ a ∈ additions, name ∈ a.names := by
  rw [names, Entries.mem_keys_ofList, groups_build, List.flatMap_map]
  simp [Addition.names_toGroup]

end Context

end Trigger
