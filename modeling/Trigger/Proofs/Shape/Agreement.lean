import Trigger.Helper.Standard
import Trigger.Proofs.Number.Order
import Trigger.Proofs.Shape.Tree

/-!
# Shapes have the values of their trees

A shape takes the health of the subject and the distance to the closest enemy from the host, and its
tree goes through the names of the context and the function `distance`.  Where this function is the
one of the standard helpers for the same subject, both have the same value.

A shape compares squares of distances.  Rounding is not the matter here, so `DistanceBound.Exact`
assumes of the squares that are compared that they decide as the distances do.
-/

namespace Trigger

variable {s : Type}

/-! ## Without a state -/

/-- The comparison of the squares decides as that of the distance with the limit. -/
def DistanceBound.Exact (b : DistanceBound) (squared : Float) : Prop :=
  b.holds squared = b.op.holds (Number.order? squared.sqrt b.limit)

/-- The bounds on distances in a shape. -/
def Shape.bounds : Shape → List DistanceBound
  | constant _ | health _ _ | healthFraction _ _ => []
  | distance bound => [bound]
  | distanceRange lower upper => [lower, upper]
  | either left right | both left right => left.bounds ++ right.bounds

/-- The value of an action without a state. -/
def answer {α : Type} (action : StateM Unit α) : α := (action ()).1

@[simp] theorem answer_pure {α : Type} (a : α) : answer (pure a) = a := rfl

@[simp] theorem answer_bind {α β : Type} (x : StateM Unit α) (f : α → StateM Unit β) :
    answer (x >>= f) = answer (f (answer x)) := rfl

theorem decidedBy_ordering {op : BinaryOp} (ordering : op.isOrdering = true) (value : Value) :
    op.decidedBy value = false := by
  cases op <;> first | rfl | cases ordering

theorem apply_ordering {op : BinaryOp} (ordering : op.isOrdering = true) (left right : Value) :
    op.apply left right = .boolean (op.holds (left.compare? right)) := by
  cases op <;> first | rfl | cases ordering

/-! ## Leaves and operators -/

namespace Expr

variable (scope : Scope s)

theorem eval_comparison {op : BinaryOp} (ordering : op.isOrdering = true) (left right : Expr) :
    (binary op left right).eval scope = (do
      let l ← left.eval scope
      let r ← right.eval scope
      return .boolean (op.holds (l.compare? r))) := by
  simp only [Expr.eval, decidedBy_ordering ordering, Bool.false_eq_true, if_false,
    apply_ordering ordering]

theorem eval_or (left right : Expr) :
    (binary .or left right).eval scope = (do
      let value ← left.eval scope
      if value.isTruthy then return value else right.eval scope) := by
  simp only [Expr.eval]
  congr 1

theorem eval_and (left right : Expr) :
    (binary .and left right).eval scope = (do
      let value ← left.eval scope
      if value.isTruthy then right.eval scope else return value) := by
  simp only [Expr.eval]
  congr 1
  funext value
  have decided : BinaryOp.and.decidedBy value = !value.isTruthy := rfl
  cases truthy : value.isTruthy <;> rw [decided, truthy] <;> rfl

/-- The subject is asked for its member. -/
theorem eval_ofSubject (subject : Value) (word : String) :
    (ofSubject word).eval (scope.bind Config.shapeSubject subject) =
      scope.world.memberOf subject word := rfl

end Expr

/-- A shape that takes no distance does what the trees that it stands for do. -/
theorem Shape.Describes.eval_eq {shape : Shape} {e : Expr} (describes : shape.Describes e)
    (unmeasured : shape.bounds = []) (scope : Scope s) (subject : Value) :
    shape.eval scope subject = e.eval (scope.bind Config.shapeSubject subject) := by
  induction describes with
  | constant | distance | distanceRange => first | rfl | cases unmeasured
  | health ordering =>
      rw [Expr.eval_comparison _ ordering, Expr.eval_ofSubject]
      rfl
  | healthFraction ordering =>
      rw [Expr.eval_comparison _ ordering, Expr.eval_ofSubject]
      rfl
  | either _ _ ihl ihr =>
      obtain ⟨first, second⟩ := List.append_eq_nil_iff.mp unmeasured
      rw [Expr.eval_or, ← ihl first, ← ihr second]
      rfl
  | both _ _ ihl ihr =>
      obtain ⟨first, second⟩ := List.append_eq_nil_iff.mp unmeasured
      rw [Expr.eval_and, ← ihl first, ← ihr second]
      rfl

/-! ## Distances -/

/-- The square of the distance between two points, if both are there. -/
def squareBetween (a b : Option Point) : Option Float :=
  a.bind fun a => b.map (squaredDistance a)

theorem exists_of_squareBetween {a b : Option Point} {d : Float}
    (square : squareBetween a b = some d) : ∃ p q, d = squaredDistance p q := by
  obtain ⟨p, -, behind⟩ := Option.bind_eq_some_iff.mp square
  obtain ⟨q, -, rfl⟩ := Option.map_eq_some_iff.mp behind
  exact ⟨p, q, rfl⟩

/-- The distance with the given square, absent if there is none. -/
def rootOf : Option Float → Value
  | some squared => .number squared.sqrt
  | none => .absent

/-- The function `distance` measures from the origin. -/
theorem World.perform_distance (w : World s) (origin : Option Point) (target : Value) :
    w.perform (.distance origin) [target] = (do
      return rootOf (squareBetween origin (← w.pointOf target))) := by
  simp only [World.perform, World.squaredBetween, bind_assoc, pure_bind]
  congr 1
  funext point
  cases origin <;> cases point <;> rfl

namespace Scope

variable {scope : Scope Unit} {subject : Value}

theorem answer_comparison {op : BinaryOp} (ordering : op.isOrdering = true) (left right : Expr) :
    answer ((Expr.binary op left right).eval scope) =
      .boolean (op.holds ((answer (left.eval scope)).compare? (answer (right.eval scope)))) := by
  rw [Expr.eval_comparison scope ordering]
  rfl

theorem answer_or (left right : Expr) :
    answer ((Expr.binary .or left right).eval scope) =
      if (answer (left.eval scope)).isTruthy then answer (left.eval scope)
      else answer (right.eval scope) := by
  rw [Expr.eval_or, answer_bind]
  split <;> rfl

theorem answer_and (left right : Expr) :
    answer ((Expr.binary .and left right).eval scope) =
      if (answer (left.eval scope)).isTruthy then answer (right.eval scope)
      else answer (left.eval scope) := by
  rw [Expr.eval_and, answer_bind]
  split <;> rfl

theorem answer_call (callee : Value) :
    answer (scope.call callee (pure [])) = answer (scope.world.callValue callee []) := by
  cases callee <;> rfl

/-- A method call without arguments has the answer of the value, in a chain as elsewhere. -/
theorem answer_method (value : Value) (word : String) :
    answer (Expr.evalLink scope value (.method word [] false)) =
      answer (scope.world.callMethod value word []) := by
  cases value with
  | host receiver => rfl
  | _ =>
      simp only [Expr.evalLink, World.callMethod, answer_bind]
      exact answer_call _

/-- Where an optional access stops there is no position. -/
theorem answer_position (scope : Scope Unit) (enemy : Value) (optional : Bool) :
    answer (scope.world.pointOf (answer (Expr.evalLinks scope enemy [.member "pos" optional]))) =
      answer (scope.world.position enemy) := by
  cases optional with
  | false => rfl
  | true => cases enemy <;> rfl

theorem answer_closestEnemySquared (scope : Scope Unit) (subject : Value) :
    answer (Shape.closestEnemySquared scope subject) =
      squareBetween (answer (scope.world.position subject)) (answer (scope.world.position
        (answer (scope.world.callMethod (answer (scope.resolve "closest")) "enemy" [])))) := by
  simp only [Shape.closestEnemySquared, answer_bind]
  cases answer (scope.world.position subject) <;> rfl

section
variable (resolves : answer (scope.resolve "distance") =
  .helper "distance" "distance" (.distance (answer (scope.world.position subject))))
include resolves

/-- The distance to the closest enemy is the root of the square that shapes compare. -/
theorem answer_enemyDistance (optional : Bool) :
    answer ((Expr.enemyDistance optional).eval (scope.bind Config.shapeSubject subject)) =
      rootOf (answer (Shape.closestEnemySquared scope subject)) := by
  let inner := scope.bind Config.shapeSubject subject
  let links : List Link := [.method "enemy" [] false, .member "pos" optional]
  let enemy := answer (scope.world.callMethod (answer (scope.resolve "closest")) "enemy" [])
  have chain : answer (Expr.eval inner (.chain (.name "closest") links)) =
      answer (Expr.evalLinks inner enemy [.member "pos" optional]) := by
    show answer (Expr.evalLinks inner (answer (Expr.evalLink inner
      (answer (scope.resolve "closest")) (.method "enemy" [] false))) _) = _
    rw [answer_method]
    rfl
  show answer (inner.call (answer (scope.resolve "distance"))
    (Expr.evalAll inner [.chain (.name "closest") links])) = _
  rw [resolves]
  show answer (scope.world.perform (.distance (answer (scope.world.position subject)))
    [answer (Expr.eval inner (.chain (.name "closest") links))]) = _
  rw [World.perform_distance, chain]
  have position : answer (scope.world.pointOf
      (answer (Expr.evalLinks inner enemy [.member "pos" optional]))) =
        answer (scope.world.position enemy) := inner.answer_position enemy optional
  rw [answer_closestEnemySquared, ← position]
  rfl

/-- A bound on the distance decides as on its square. -/
theorem answer_ofBound {bound : DistanceBound} (ordering : bound.op.isOrdering = true)
    (exact : ∀ d ∈ answer (Shape.closestEnemySquared scope subject), bound.Exact d)
    (optional : Bool) :
    answer ((Expr.ofBound bound optional).eval (scope.bind Config.shapeSubject subject)) =
      .boolean ((answer (Shape.closestEnemySquared scope subject)).any bound.holds) := by
  rw [Expr.ofBound, answer_comparison ordering, answer_enemyDistance resolves]
  cases measured : answer (Shape.closestEnemySquared scope subject) with
  | none =>
      have incomparable : Value.absent.compare? (.number bound.limit) = none :=
        Number.order?_nan bound.limit
      show Value.boolean (bound.op.holds (Value.absent.compare? (.number bound.limit))) = _
      rw [incomparable]
      cases bound.op <;> rfl
  | some d => exact congrArg Value.boolean (exact d measured).symm

end

end Scope

/-- A shape has the value of each tree that it stands for. -/
theorem Shape.Describes.agrees {scope : Scope Unit} {subject : Value} {shape : Shape} {e : Expr}
    (describes : shape.Describes e)
    (resolves : answer (scope.resolve "distance") = .helper "distance" "distance"
      (.distance (answer (scope.world.position subject))))
    (exact : ∀ bound ∈ shape.bounds,
      ∀ d ∈ answer (Shape.closestEnemySquared scope subject), bound.Exact d) :
    answer (shape.eval scope subject) =
      answer (e.eval (scope.bind Config.shapeSubject subject)) := by
  induction describes with
  | constant value => exact congrArg answer (eval_eq (.constant value) rfl scope subject)
  | health ordering => exact congrArg answer (eval_eq (.health ordering) rfl scope subject)
  | healthFraction ordering =>
      exact congrArg answer (eval_eq (.healthFraction ordering) rfl scope subject)
  | distance ordering =>
      rw [Scope.answer_ofBound resolves ordering (exact _ (by simp [Shape.bounds]))]
      rfl
  | @distanceRange lower upper _ _ ordering ordering' =>
      have left := Scope.answer_ofBound resolves ordering (exact lower (by simp [Shape.bounds]))
      have right := Scope.answer_ofBound resolves ordering' (exact upper (by simp [Shape.bounds]))
      rw [Scope.answer_and, left, right]
      simp only [Shape.eval, answer_bind, answer_pure]
      cases answer (Shape.closestEnemySquared scope subject) with
      | none => rfl
      | some d =>
          rw [Option.any_some, Option.any_some, Option.any_some]
          generalize lower.holds d = first
          generalize upper.holds d = second
          cases first <;> rfl
  | @either left right l r _ _ ihl ihr =>
      have first := ihl fun bound mem => exact bound (List.mem_append_left _ mem)
      have second := ihr fun bound mem => exact bound (List.mem_append_right _ mem)
      rw [Scope.answer_or, ← first, ← second]
      simp only [Shape.eval, answer_bind]
      split <;> rfl
  | @both left right l r _ _ ihl ihr =>
      have first := ihl fun bound mem => exact bound (List.mem_append_left _ mem)
      have second := ihr fun bound mem => exact bound (List.mem_append_right _ mem)
      rw [Scope.answer_and, ← first, ← second]
      simp only [Shape.eval, answer_bind]
      split <;> rfl

end Trigger
