import Trigger.Helper.Standard
import Trigger.Proofs.Number.Signs
import Trigger.Proofs.Shape.Agreement
import Trigger.Proofs.World.Steady

/-!
# Distances in the standard context

Building the context of the standard helpers reads the position of the subject, and its lazy groups
read the units when they are produced.  So what the helpers answer depends on when this was.  It
does not for what stays where it is (`World.Stays`), whatever else the world does.

A unit is measured by the expression `distance(unit.pos)`, with the unit under the name `unit`.
-/

namespace Trigger

variable {s : Type}

/-- The unit has one position, or never one. -/
def World.Stays (w : World s) (unit : Value) : Prop := Constant (w.position unit)

/-- The square between two points is not below zero, or it is no number. -/
theorem measured_of_squareBetween {a b : Option Point} {d : Float}
    (square : squareBetween a b = some d) : 0 ≤ d ∨ d.isNaN = true := by
  obtain ⟨p, q, rfl⟩ := exists_of_squareBetween square
  exact Number.measured_squaredDistance p q

/-- A world without functions and objects. -/
def World.silent : World Unit where
  call _ _ := pure .absent
  member _ _ := pure .absent
  method? _ := none
  random := pure 0

/-- The measured unit is bound to this name. -/
def Expr.measured : String := "unit"

/-- The distance from the subject to the measured unit. -/
def Expr.unitDistance : Expr :=
  .call "distance" [.chain (.name measured) [.member "pos" false]]

namespace Scope

variable {t : Type} {scope : Scope t} {origin : Option Point} {l l' : t}
  (resolved : scope.resolve "distance" l =
    (.helper "distance" "distance" (.distance origin), l'))
include resolved

theorem eval_unitDistance (unit : Value) :
    Expr.unitDistance.eval (scope.bind Expr.measured unit) l =
      (do return rootOf (squareBetween origin (← scope.world.position unit))) l' := by
  let inner := scope.bind Expr.measured unit
  show inner.call (scope.resolve "distance" l).1
    (Expr.evalAll inner [.chain (.name Expr.measured) [.member "pos" false]])
    (scope.resolve "distance" l).2 = _
  rw [resolved]
  show (do let target ← scope.world.memberOf unit "pos"
           scope.world.perform (.distance origin) [target]) l' = _
  simp only [World.perform_distance]
  rfl

theorem eval_enemyDistance {subject enemy ally : Value}
    (closest : (scope.resolve "closest" l').1 =
      .helpers "closest" [("enemy", .answer enemy), ("ally", .answer ally)]) :
    (Expr.enemyDistance false).eval (scope.bind Config.shapeSubject subject) l =
      (do return rootOf (squareBetween origin (← scope.world.position enemy)))
        (scope.resolve "closest" l').2 := by
  let inner := scope.bind Config.shapeSubject subject
  let links : List Link := [.method "enemy" [] false, .member "pos" false]
  show inner.call (scope.resolve "distance" l).1
    (Expr.evalAll inner [.chain (.name "closest") links]) (scope.resolve "distance" l).2 = _
  rw [resolved]
  show (do let target ← Expr.evalLinks inner (scope.resolve "closest" l').1 links
           scope.world.perform (.distance origin) [target]) (scope.resolve "closest" l').2 = _
  rw [closest]
  show (do let target ← scope.world.memberOf enemy "pos"
           scope.world.perform (.distance origin) [target]) (scope.resolve "closest" l').2 = _
  simp only [World.perform_distance]
  rfl

end Scope

namespace Context

/-- The bindings of a lazy owner have been produced in some state. -/
theorem Faithful.exists_produced {c : Context s} {l : Live s} (faithful : c.Faithful l)
    {name : String} {place : Nat} {g : Group s} {names : List String} {produce : StateM s Bindings}
    (owner : c.owner? name = some (place, g)) (kind : g.kind = .lazy names produce) :
    ∃ state, (c.resolve name l).1 = ((produce state).1.find? name).getD .absent := by
  have run : (c.resolve name l).1 =
      ((Live.demand place produce l).1.find? name).getD .absent := by
    simp only [resolve, resolve?, owner, kind]
    rfl
  rw [run]
  unfold Live.demand
  cases known : l.at? place with
  | none => exact ⟨l.world, rfl⟩
  | some bindings =>
      obtain ⟨names', produce', state, kind', rfl⟩ := faithful.of_owner owner known
      cases kind.symm.trans kind'
      exact ⟨state, rfl⟩

variable (w : World s) (subject : Value) (roster : Roster) (built : s)

theorem resolve_standard_distance : ∃ other, ∀ l,
    (standard w subject roster built).1.resolve "distance" l =
      (.helper "distance" "distance" (.distance (w.position subject other).1), l) :=
  ⟨_, fun _ => rfl⟩

theorem resolve_standard_closest {l : Live s}
    (faithful : (standard w subject roster built).1.Faithful l) :
    ∃ state ally, ((standard w subject roster built).1.resolve "closest" l).1 =
      .helpers "closest"
        [("enemy", .answer (w.find .closest (w.position subject built).1 roster.enemies state).1),
          ("ally", .answer ally)] := by
  have owner : (standard w subject roster built).1.owner? "closest" = some (3,
    ⟨"closest",
      .lazy ["closest"] (Helper.finder w roster .closest (w.position subject built).1)⟩) :=
    rfl
  obtain ⟨state, eq⟩ := faithful.exists_produced owner rfl
  rw [eq]
  exact ⟨state, _, rfl⟩

/-- The distance of a unit is that of positions which the subject and the unit have in some
states. -/
theorem standard_unitDistance (unit : Value) (l : Live s) : ∃ other later,
    (Expr.unitDistance.eval
        (((standard w subject roster built).1.scope w).bind Expr.measured unit) l).1 =
      rootOf (squareBetween (w.position subject other).1 (w.position unit later).1) := by
  obtain ⟨other, resolved⟩ := resolve_standard_distance w subject roster built
  refine ⟨other, l.world, ?_⟩
  rw [Scope.eval_unitDistance (resolved l) unit]
  show rootOf (squareBetween _ (w.inside.position unit l).1) = _
  rw [w.inside_position]
  rfl

/-- The distance of the closest enemy is that of a unit which the finder has found. -/
theorem standard_enemyDistance {l : Live s}
    (faithful : (standard w subject roster built).1.Faithful l) : ∃ other state later,
    ((Expr.enemyDistance false).eval
        (((standard w subject roster built).1.scope w).bind Config.shapeSubject subject)
        l).1 =
      rootOf (squareBetween (w.position subject other).1 (w.position
        (w.find .closest (w.position subject built).1 roster.enemies state).1 later).1) := by
  obtain ⟨other, resolved⟩ := resolve_standard_distance w subject roster built
  obtain ⟨state, ally, closest⟩ := resolve_standard_closest w subject roster built faithful
  let behind := ((standard w subject roster built).1.resolve "closest" l).2
  refine ⟨other, state, behind.world, ?_⟩
  rw [Scope.eval_enemyDistance (resolved l) closest]
  show rootOf (squareBetween _ (w.inside.position _ behind).1) = _
  rw [w.inside_position]
  rfl

end Context

end Trigger
