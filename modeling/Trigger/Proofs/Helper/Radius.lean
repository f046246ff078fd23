import Trigger.Proofs.Helper.Standard
import Trigger.Proofs.Number.Nearest
import Trigger.Proofs.Shape.Squared

/-!
# Counting within a radius, and measuring

The functions `enemiesWithin` and `alliesWithin` of `count` compare the squares of distances with
the square of the radius, and `distance` takes the root.  The two have the same outcome where a
square is `Clear` of the squared radius: further away than the slack of a bound, or exactly on the
boundary.  Then the count is the number of units that are measured within the radius
(`count_eq_measured`).

They differ next to the boundary, where the square of the radius or the root is rounded, and for a
negative radius, whose square has lost the sign (`count_differs_from_measured`).
-/

namespace Trigger

variable {s : Type}

/-! ## Expressions -/

/-- The name of the function that counts the units of a side. -/
def Side.withinName : Side → String
  | .allies => "alliesWithin"
  | .enemies => "enemiesWithin"

namespace Expr

/-- The radius is bound to this name. -/
def radius : String := "radius"

/-- The number of units of a side within the radius. -/
def countWithin (side : Side) : Expr :=
  .chain (.name "count") [.method side.withinName [.name radius] false]

/-- Whether the measured unit is within the radius. -/
def unitWithin : Expr := .binary .lessEqual unitDistance (.name radius)

end Expr

/-! ## Counting -/

theorem World.through_inside (w : World s) : World.Related (Through Live.world) w.inside w where
  relation := Through.compositional _
  call _ _ _ := rfl
  member _ _ _ := rfl
  methods _ := Option.isSome_map
  method object method method' found found' name arguments l := by
    obtain ⟨answers, known, rfl⟩ := Option.map_eq_some_iff.mp found
    obtain rfl : answers = method' := Option.some.inj (known.symm.trans found')
    rfl
  random _ := rfl

/-- The units that stay are counted by their positions. -/
theorem World.countWithin_of_stay (w : World s) {units : List Value}
    (stay : ∀ unit ∈ units, w.Stays unit) (origin : Option Point) (r : Float) (state built : s) :
    (w.countWithin units origin r state).1 = units.countP fun unit =>
      (squareBetween origin (w.position unit built).1).any (· ≤ r * r) := by
  have read :
    (units.mapM w.position state).1 = units.map fun unit => (w.position unit built).1 := by
    induction units generalizing state with
    | nil => rfl
    | cons unit units ih =>
        obtain ⟨stays, stay⟩ := List.forall_mem_cons.mp stay
        rw [List.mapM_cons, List.map_cons, ← ih stay (w.position unit state).2, ← stays state built]
        rfl
  cases origin with
  | none => simp [countWithin, squareBetween, pure, StateT.pure]
  | some origin =>
      show ((units.mapM w.position state).1.filterMap id).countP _ = _
      rw [read, List.filterMap_map, List.countP_filterMap]
      refine List.countP_congr fun unit _ => ?_
      simp only [Function.comp_apply, id_eq, squareBetween]
      cases (w.position unit built).1 <;> simp

/-! ## Comparing -/

namespace Number

theorem holds_lessEqual_iff (x y : Float) :
    BinaryOp.lessEqual.holds (order? x y) = true ↔ x ≤ y := by
  rw [le_iff, order?_eq]
  cases (parts x).compare (parts y) with
  | none => rfl
  | some order => cases order <;> rfl

theorem isNaN_square_of_isNaN {x : Float} (none : x.isNaN = true) : (x * x).isNaN = true := by
  show (parts (ofParts ((parts x).mul .binary64 (parts x)))).isNaN = true
  rw [parts_of_isNaN none]
  rfl

/-- A number is not above the infinity that is above all others. -/
theorem le_of_infinite {x y : Float} (number : x.isNaN = false)
    (infinite : parts y = .infinity .positive) : x ≤ y := by
  have number' : y.isNaN = false := by
    show (parts y).isNaN = false
    rw [infinite]
    rfl
  exact (le_iff_not_lt number number').mpr (not_lt_of_infinite infinite)

theorem le_of_real_eq {x y : Float} (finite : Finite x) (finite' : Finite y)
    (same : real x = real y) : x ≤ y := by
  rw [le_iff_not_lt (isNaN_of_finite finite) (isNaN_of_finite finite'), lt_iff_real finite' finite]
  exact same.not_gt

end Number

namespace DistanceBound

open Number

/-- The square of a distance is on the same side of the squared limit as the distance of the limit:
they are apart by more than the slack, or both are on the boundary, or the limit is infinite or no
number. -/
inductive Clear (b : DistanceBound) (squared : Float) : Prop
  | far : 0 ≤ b.limit → b.slack < (squared - b.limitSquared).abs → Clear b squared
  | boundary : 0 ≤ b.limit → Finite b.limit → Finite squared →
      real squared = real b.limit * real b.limit → Clear b squared
  | unlimited : b.limit = infinity → Clear b squared
  | noLimit : b.limit.isNaN = true → Clear b squared

/-- Then the squares compare as the distance and the limit. -/
theorem Clear.le_iff {b : DistanceBound} {squared : Float} (clear : b.Clear squared)
    (measured : 0 ≤ squared ∨ squared.isNaN = true) :
    squared ≤ b.limitSquared ↔ squared.sqrt ≤ b.limit := by
  cases clear with
  | far nonneg far =>
      rw [← holds_lessEqual_iff, ← holds_lessEqual_iff,
        b.order?_of_slack_lt (.inl nonneg) measured far]
  | boundary nonneg finite finite' square =>
      have real_nonneg := nonneg_of_finite (.inl nonneg) finite
      obtain ⟨⟨finite_square, same⟩, finite_root, same'⟩ :=
        exact_square finite finite' real_nonneg square
      exact iff_of_true (le_of_real_eq finite' finite_square same.symm)
        (le_of_real_eq finite_root finite same')
  | unlimited infinite =>
      have limit : parts b.limit = .infinity .positive := infinite ▸ rfl
      have square : parts b.limitSquared = .infinity .positive := by
        show parts (b.limit * b.limit) = _
        rw [infinite]
        rfl
      rcases measured with nonneg | none
      · have number : squared.isNaN = false :=
          Bool.eq_false_iff.mpr fun none => not_le_isNaN 0 none nonneg
        exact iff_of_true (le_of_infinite number square)
          (le_of_infinite (isNaN_sqrt nonneg) limit)
      · exact iff_of_false (not_le_of_isNaN none _) (not_le_of_isNaN (isNaN_sqrt_of_isNaN none) _)
  | noLimit none =>
      exact iff_of_false (not_le_isNaN _ (isNaN_square_of_isNaN none)) (not_le_isNaN _ none)

end DistanceBound

/-- No distance is within a negative radius. -/
theorem Number.not_sqrt_le_of_neg {r : Float} (negative : r < 0) {squared : Float}
    (measured : 0 ≤ squared ∨ squared.isNaN = true) : ¬ squared.sqrt ≤ r := by
  rcases measured with nonneg | none
  · have number : r.isNaN = false :=
      Bool.eq_false_iff.mpr fun none => not_lt_of_isNaN none 0 negative
    have zero : Finite 0 := trivial
    have below : extended r < 0 := by
      have less := (lt_iff_extended number (isNaN_of_finite zero)).mp negative
      rwa [extended_of_finite zero, show real 0 = 0 from rfl] at less
    rw [le_iff_not_lt (isNaN_sqrt nonneg) number, not_not,
      lt_iff_extended number (isNaN_sqrt nonneg)]
    exact below.trans_le (extended_sqrt_nonneg nonneg)
  · exact not_le_of_isNaN (isNaN_sqrt_of_isNaN none) r

/-! ## Evaluation -/

namespace Scope

variable {t : Type} {scope : Scope t} {origin : Option Point} {roster : Roster} {l l' : t}

theorem eval_countWithin
    (resolved : scope.resolve "count" l =
      ((Entries.find? "count" (Helper.count roster origin)).getD .absent, l'))
    (side : Side) (r : Value) :
    (Expr.countWithin side).eval (scope.bind Expr.radius r) l =
      (do
        let count ← scope.world.countWithin (roster.side side) origin r.toNumber
        return Value.number (Number.ofNat count)) l' := by
  let inner := scope.bind Expr.radius r
  show Expr.evalLinks inner (scope.resolve "count" l).1
    [.method side.withinName [.name Expr.radius] false] (scope.resolve "count" l).2 = _
  rw [resolved]
  cases side <;> rfl

/-- The distance is compared with the number of the radius. -/
theorem compare_rootOf (square : Option Float) (r : Value) :
    BinaryOp.lessEqual.holds ((rootOf square).compare? r) =
      square.any (Float.sqrt · ≤ r.toNumber) := by
  cases square with
  | none =>
      have incomparable : (rootOf none).compare? r = none := by
        cases r <;> exact Number.order?_nan _
      rw [incomparable]
      rfl
  | some d =>
      have compared : (rootOf (some d)).compare? r = Number.order? d.sqrt r.toNumber := by
        cases r <;> rfl
      rw [compared, Option.any_some, Bool.eq_iff_iff, Number.holds_lessEqual_iff,
        decide_eq_true_iff]

theorem eval_unitWithin
    (resolved : scope.resolve "distance" l =
      (.helper "distance" "distance" (.distance origin), l')) (unit r : Value) :
    Expr.unitWithin.eval ((scope.bind Expr.radius r).bind Expr.measured unit) l = (do
      let point ← scope.world.position unit
      return Value.boolean ((squareBetween origin point).any (Float.sqrt · ≤ r.toNumber))) l' := by
  let outer := scope.bind Expr.radius r
  let inner := outer.bind Expr.measured unit
  have resolved' : outer.resolve "distance" l =
      (.helper "distance" "distance" (.distance origin), l') := resolved
  have measured : Expr.unitDistance.eval inner l = _ := eval_unitDistance resolved' unit
  rw [Expr.unitWithin, Expr.eval_comparison _ rfl]
  show (Value.boolean (BinaryOp.lessEqual.holds ((Expr.unitDistance.eval inner l).1.compare? r)),
    (Expr.unitDistance.eval inner l).2) = _
  rw [measured]
  show (Value.boolean (BinaryOp.lessEqual.holds ((rootOf _).compare? r)), _) = _
  rw [compare_rootOf]
  rfl

end Scope

namespace Context

section
variable (w : World s) (subject : Value) (roster : Roster) (built : s)

/-- The count of a side, by the squares between positions. -/
theorem standard_countWithin (side : Side) (stay : ∀ unit ∈ roster.side side, w.Stays unit)
    (r : Value) (l : Live s) :
    ((Expr.countWithin side).eval
        (((standard w subject roster built).1.scope w).bind Expr.radius r) l).1 =
      .number (Number.ofNat ((roster.side side).countP fun unit =>
        (squareBetween (w.position subject built).1 (w.position unit built).1).any
          (· ≤ r.toNumber * r.toNumber))) := by
  let origin := (w.position subject built).1
  let scope := (standard w subject roster built).1.scope w
  have resolved : scope.resolve "count" l =
      (((Helper.count roster origin).find? "count").getD .absent, l) := rfl
  have inside := (w.through_inside.countWithin (roster.side side) origin r.toNumber) l
  rw [scope.eval_countWithin resolved,
    ← w.countWithin_of_stay stay origin r.toNumber l.world built]
  exact congrArg (fun run => Value.number (Number.ofNat run.1)) inside

/-- The distance of a unit within the radius, by the root of the square between positions. -/
theorem standard_unitWithin (stays : w.Stays subject) {unit : Value} (stays' : w.Stays unit)
    (r : Value) (l : Live s) :
    (Expr.unitWithin.eval ((((standard w subject roster built).1.scope w).bind Expr.radius r).bind
        Expr.measured unit) l).1 =
      .boolean ((squareBetween (w.position subject built).1 (w.position unit built).1).any
        (Float.sqrt · ≤ r.toNumber)) := by
  obtain ⟨other, resolved⟩ := resolve_standard_distance w subject roster built
  rw [Scope.eval_unitWithin (resolved l) unit r]
  show Value.boolean ((squareBetween _ (w.inside.position unit l).1).any _) = _
  rw [w.inside_position, stays other built]
  show Value.boolean ((squareBetween _ (w.position unit l.world).1).any _) = _
  rw [stays' l.world built]

end

/-- Where the subject and the units of a side stay, the count within a radius is the number of units
for which `distance(unit.pos) <= radius` is true, as long as each squared distance is clear of the
squared radius.  No unit is measured within a negative radius. -/
theorem count_eq_measured (w : World s) (subject : Value) (roster : Roster) (built : s)
    (side : Side) (stay : ∀ unit ∈ subject :: roster.side side, w.Stays unit) (r : Value) :
    let c := (standard w subject roster built).1
    let scope := (c.scope w).bind Expr.radius r
    let measured := fun live => (roster.side side).countP fun unit =>
      (Expr.unitWithin.eval (scope.bind Expr.measured unit) live).1.isTruthy
    ∀ live live',
      ((∀ unit ∈ roster.side side, ∀ d,
          squareBetween (w.position subject built).1 (w.position unit built).1 = some d →
          DistanceBound.Clear ⟨.lessEqual, r.toNumber⟩ d) →
        ((Expr.countWithin side).eval scope live).1 = .number (Number.ofNat (measured live'))) ∧
      (r.toNumber < 0 → measured live' = 0) := by
  intro c scope measured live live'
  obtain ⟨stays, stay⟩ := List.forall_mem_cons.mp stay
  have within (unit : Value) (mem : unit ∈ roster.side side) :
      (Expr.unitWithin.eval (scope.bind Expr.measured unit) live').1.isTruthy =
        (squareBetween (w.position subject built).1 (w.position unit built).1).any
          (Float.sqrt · ≤ r.toNumber) := by
    rw [standard_unitWithin w subject roster built stays (stay unit mem) r live']
    rfl
  constructor
  · intro clear
    rw [standard_countWithin w subject roster built side stay r live]
    refine congrArg (fun n => Value.number (Number.ofNat n)) (List.countP_congr fun unit mem => ?_)
    rw [within unit mem]
    cases square : squareBetween (w.position subject built).1 (w.position unit built).1 with
    | none => rfl
    | some d =>
        simp only [Option.any_some, decide_eq_true_iff]
        exact (clear unit mem d square).le_iff (measured_of_squareBetween square)
  · intro negative
    refine List.countP_eq_zero.mpr fun unit mem => ?_
    rw [within unit mem]
    cases square : squareBetween (w.position subject built).1 (w.position unit built).1 with
    | none => exact Bool.false_ne_true
    | some d =>
        simp only [Option.any_some, decide_eq_true_iff]
        exact Number.not_sqrt_le_of_neg negative (measured_of_squareBetween square)

/-- A subject in the origin. -/
def atOrigin : Value := .ofEntries [("pos", .point (0, 0))]

/-- One enemy, whose distance from the origin is the root of thirteen. -/
def oneEnemy : Roster := ⟨[], [.ofEntries [("pos", .point (2, 3))]]⟩

theorem stay_silent (unit : Value) : World.silent.Stays unit := fun _ _ => rfl

theorem count_eq_measured_one :
    let scope := (standard World.silent atOrigin oneEnemy ()).1.scope World.silent
    let count := fun r : Float => ((Expr.countWithin .enemies).eval
      (scope.bind Expr.radius (.number r)) (.fresh ())).1
    let measured := fun r : Float => (oneEnemy.side .enemies).countP fun unit =>
      (Expr.unitWithin.eval ((scope.bind Expr.radius (.number r)).bind Expr.measured unit)
        (.fresh ())).1.isTruthy
    count 4 = .number (Number.ofNat (measured 4)) ∧ measured (-5) = 0 := by
  intro scope count measured
  have agree (r : Float) := count_eq_measured World.silent atOrigin oneEnemy () .enemies
    (fun unit _ => stay_silent unit) (.number r) (.fresh ()) (.fresh ())
  refine ⟨(agree 4).1 fun unit mem d square => ?_, (agree (-5)).2 (by decide +kernel)⟩
  obtain rfl := List.mem_singleton.mp mem
  have known : squareBetween (World.silent.position atOrigin ()).1
      (World.silent.position (.ofEntries [("pos", .point (2, 3))]) ()).1 =
        some (squaredDistance (0, 0) (2, 3)) := rfl
  obtain rfl := Option.some.inj (known.symm.trans square)
  exact .far (by decide +kernel) (by decide +kernel)

/-- The root of thirteen, which is rounded down: its square is less than thirteen. -/
def rootThirteen : Float := Number.decimal 3605551275463989 (-15)

/-- The enemy is measured within the rounded root, but not counted.  It is counted within a negative
radius, but not measured. -/
theorem count_differs_from_measured :
    let scope := (standard World.silent atOrigin oneEnemy ()).1.scope World.silent
    let count := fun r : Float => ((Expr.countWithin .enemies).eval
      (scope.bind Expr.radius (.number r)) (.fresh ())).1
    let measured := fun r : Float => (oneEnemy.side .enemies).countP fun unit =>
      (Expr.unitWithin.eval ((scope.bind Expr.radius (.number r)).bind Expr.measured unit)
        (.fresh ())).1.isTruthy
    (count rootThirteen = .number (Number.ofNat 0) ∧ measured rootThirteen = 1) ∧
      (count (-5) = .number (Number.ofNat 1) ∧ measured (-5) = 0) := by
  have counted (r : Float) := standard_countWithin World.silent atOrigin oneEnemy () .enemies
    (fun unit _ => stay_silent unit) (.number r) (.fresh ())
  have within (r : Float) (unit : Value) := standard_unitWithin World.silent atOrigin oneEnemy ()
    (stay_silent atOrigin) (stay_silent unit) (.number r) (.fresh ())
  simp only [counted, within]
  refine ⟨⟨congrArg (fun n => Value.number (Number.ofNat n)) ?_, ?_⟩,
    congrArg (fun n => Value.number (Number.ofNat n)) ?_, ?_⟩ <;> decide +kernel

end Context

end Trigger
