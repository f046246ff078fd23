import Trigger.Proofs.World.Trace

/-!
# Journals

A journal is all that evaluation does to its surroundings, in order: the calls that functions of the
world answer, the members and methods that objects of the host are asked for, the random numbers
that are drawn, and the groups that are produced.  A `journaled` scope does what the scope does, and
adds to the journal what it has done.

So evaluation in it has the same value and the same live state (`Scope.through_journaled`), and the
journal only grows (`Journaled.extends_evalLinks`).
-/

namespace Trigger

variable {s α β : Type}

/-- What evaluation does to its surroundings. -/
inductive Deed where
  /-- A function of the world answers a call. -/
  | call (serial : Nat) (arguments : List Value)
  /-- An object of the host is asked for a member. -/
  | read (object : HostObject) (name : String)
  /-- An object of the host answers a method call. -/
  | method (object : HostObject) (name : String) (arguments : List Value)
  /-- A random number is drawn. -/
  | draw
  /-- The group at the place is produced. -/
  | produce (place : Nat)

/-- A live state, and what has been done, the first in front. -/
structure Journaled (s : Type) where
  live : Live s
  journal : List Deed

namespace Journaled

/-- The groups that have been produced between two states, the first in front. -/
def productions (l l' : Live s) : List Deed :=
  ((l'.places.filter (· ∉ l.places)).map .produce).reverse

/-- The action, with the given deeds and what it produces in the journal. -/
def doing (deeds : List Deed) (x : StateM (Live s) α) : StateM (Journaled s) α := fun t =>
  ((x t.live).1, ⟨(x t.live).2, t.journal ++ (deeds ++ productions t.live (x t.live).2)⟩)

end Journaled

open Journaled

/-- The world, with a journal of what it is asked. -/
def World.journaled (w : World (Live s)) : World (Journaled s) where
  call serial arguments := doing [.call serial arguments] (w.call serial arguments)
  member object name := doing [.read object name] (w.member object name)
  method? object :=
    (w.method? object).map fun method name arguments =>
      doing [.method object name arguments] (method name arguments)
  random := doing [.draw] w.random

/-- The scope, with a journal of what is done in it. -/
def Scope.journaled (scope : Scope (Live s)) : Scope (Journaled s) where
  world := scope.world.journaled
  resolve word := doing [] (scope.resolve word)

/-! ## What is done is the same -/

theorem World.through_journaled (w : World (Live s)) :
    World.Related (Through Journaled.live) w.journaled w where
  relation := Through.compositional _
  call _ _ _ := rfl
  member _ _ _ := rfl
  methods _ := Option.isSome_map
  method object method method' found found' name arguments t := by
    have found : (w.method? object).map _ = some method := found
    rw [found', Option.map_some] at found
    cases found
    rfl
  random _ := rfl

theorem Scope.through_journaled (scope : Scope (Live s)) :
    Scope.Related (Through Journaled.live) scope.journaled scope :=
  ⟨scope.world.through_journaled, fun _ _ => rfl⟩

/-! ## The journal only grows -/

namespace Journaled

/-- The action adds to the journal, and changes nothing in it. -/
def Extends (x : StateM (Journaled s) α) : Prop := ∀ t, t.journal <+: (x t).2.journal

theorem extends_doing (deeds : List Deed) (x : StateM (Live s) α) : Extends (doing deeds x) :=
  fun _ => List.prefix_append _ _

theorem extends_compositional :
    Compositional fun α (x _ : StateM (Journaled s) α) => Extends x where
  answer _ _ := List.prefix_rfl
  bind first second t := (first t).trans (second _ _)

theorem extends_world (w : World (Live s)) :
    World.Related (fun _ (x _ : StateM (Journaled s) _) => Extends x) w.journaled w.journaled where
  relation := extends_compositional
  call serial arguments := extends_doing _ _
  member object name := extends_doing _ _
  methods _ := rfl
  method object method _ found _ name arguments := by
    obtain ⟨answers, -, rfl⟩ := Option.map_eq_some_iff.mp found
    exact extends_doing _ _
  random := extends_doing _ _

/-- The links behind a value add to the journal. -/
theorem extends_evalLinks (scope : Scope (Live s)) (value : Value) (links : List Link) :
    Extends (Expr.evalLinks scope.journaled value links) := by
  have related : World.Related (fun _ (x _ : StateM (Journaled s) _) => Extends x)
      scope.journaled.world scope.journaled.world := extends_world scope.world
  exact related.evalLinks links (fun _ _ => extends_doing _ _) value

end Journaled

end Trigger
