import Trigger.Proofs.Expr.Nodes
import Trigger.Shape.Basic

/-!
# Related evaluations

Every operation of a world is made of its answers by `pure` and `bind`, and evaluation is made of
the operations of the world and of the names that an expression looks up.  So a relation between
actions that `pure` and `bind` keep need only hold of the answers of two worlds and of the names in
two scopes.  Then it holds of what an expression or a shape does in both.

The two states need not be of one type, and the second action may be left out of the relation.  So
the same lemmas say that evaluation in one scope has the answers of another one, that it is the same
action, and what it does to the state.
-/

namespace Trigger

variable {s t : Type}

/-- A relation between actions on two states that holds of answers and is kept by sequences. -/
structure Compositional (R : ∀ α : Type, StateM s α → StateM t α → Prop) : Prop where
  /-- It holds of each answer and itself. -/
  answer : ∀ {α : Type} (a : α), R α (pure a) (pure a)
  /-- It is kept by sequences. -/
  bind : ∀ {α β : Type} {x : StateM s α} {y : StateM t α} {f : α → StateM s β}
    {g : α → StateM t β}, R α x y → (∀ a, R β (f a) (g a)) → R β (x >>= f) (y >>= g)

namespace Compositional

variable {R : ∀ α : Type, StateM s α → StateM t α → Prop}

theorem map (relation : Compositional R) {α β : Type} {x : StateM s α} {y : StateM t α}
    (related : R α x y) (f : α → β) : R β (do return f (← x)) (do return f (← y)) :=
  relation.bind related fun a => relation.answer (f a)

theorem mapM (relation : Compositional R) {α β : Type} {f : α → StateM s β}
    {g : α → StateM t β} (related : ∀ a, R β (f a) (g a)) (as : List α) :
    R (List β) (as.mapM f) (as.mapM g) := by
  induction as with
  | nil => exact relation.answer []
  | cons a as ih =>
      rw [List.mapM_cons, List.mapM_cons]
      exact relation.bind (related a) fun b => relation.map ih (b :: ·)

end Compositional

/-- The action does to a part of its state what the other one does. -/
def Through (part : s → t) (α : Type) (x : StateM s α) (y : StateM t α) : Prop :=
  ∀ state, ((x state).1, part (x state).2) = y (part state)

theorem Through.compositional (part : s → t) : Compositional (Through part) where
  answer _ _ := rfl
  bind {α β x y f g} first second state := by
    have value := congrArg Prod.fst (first state)
    have behind := congrArg Prod.snd (first state)
    have rest := second (x state).1 (x state).2
    dsimp only at value behind
    rw [behind] at rest
    show ((f (x state).1 (x state).2).1, part (f (x state).1 (x state).2).2) =
      g (y (part state)).1 (y (part state)).2
    rw [rest, value]

/-! ## Operations of a world -/

namespace World

/-- The answers of two worlds are related, by a relation that sequences keep. -/
structure Related (R : ∀ α : Type, StateM s α → StateM t α → Prop) (w : World s) (v : World t) :
    Prop where
  /-- Sequences keep the relation. -/
  relation : Compositional R
  /-- The answers of functions are related. -/
  call : ∀ serial arguments, R _ (w.call serial arguments) (v.call serial arguments)
  /-- So are those of objects that are asked for members. -/
  member : ∀ object name, R _ (w.member object name) (v.member object name)
  /-- The same objects answer method calls. -/
  methods : ∀ object, (w.method? object).isSome = (v.method? object).isSome
  /-- Their answers to these are related. -/
  method : ∀ object method method', w.method? object = some method →
    v.method? object = some method' →
      ∀ name arguments, R _ (method name arguments) (method' name arguments)
  /-- So are the random numbers. -/
  random : R _ w.random v.random

namespace Related

variable {R : ∀ α : Type, StateM s α → StateM t α → Prop} {w : World s} {v : World t}

theorem memberOf (related : Related R w v) (value : Value) (name : String) :
    R _ (w.memberOf value name) (v.memberOf value name) := by
  cases value with
  | host object => exact related.member object name
  | _ => exact related.relation.answer _

theorem pointOfMembers (related : Related R w v) (value : Value) :
    R _ (w.pointOfMembers value) (v.pointOfMembers value) := by
  refine related.relation.bind (related.memberOf value "x") fun x => ?_
  cases x.number? with
  | none => exact related.relation.answer none
  | some x => exact related.relation.map (related.memberOf value "y") _

theorem pointOf (related : Related R w v) (value : Value) :
    R _ (w.pointOf value) (v.pointOf value) := by
  unfold World.pointOf
  split
  · exact related.relation.answer _
  · exact related.pointOfMembers _
  · exact related.pointOfMembers _
  · exact related.relation.answer _

theorem position (related : Related R w v) (unit : Value) :
    R _ (w.position unit) (v.position unit) :=
  related.relation.bind (related.memberOf unit "pos") fun value => related.pointOf value

theorem positions (related : Related R w v) (units : List Value) :
    R _ (w.positions units) (v.positions units) :=
  related.relation.map (related.relation.mapM related.position units) _

theorem squaredBetween (related : Related R w v) (origin : Option Point)
    (arguments : List Value) :
    R _ (w.squaredBetween origin arguments) (v.squaredBetween origin arguments) := by
  unfold World.squaredBetween
  split
  · exact related.relation.answer none
  · exact related.relation.map (related.pointOf _) _
  · exact related.relation.bind (related.pointOf _) fun a =>
      related.relation.map (related.pointOf _) _

theorem countWithin (related : Related R w v) (units : List Value) (origin : Option Point)
    (radius : Float) :
    R _ (w.countWithin units origin radius) (v.countWithin units origin radius) := by
  cases origin with
  | none => exact related.relation.answer 0
  | some origin => exact related.relation.map (related.positions units) _

theorem perform (related : Related R w v) (task : Task) (arguments : List Value) :
    R _ (w.perform task arguments) (v.perform task arguments) := by
  cases task with
  | math f => exact related.relation.answer _
  | distance origin | distanceSquared origin =>
      refine related.relation.bind (related.squaredBetween origin arguments) fun d => ?_
      cases d <;> exact related.relation.answer _
  | answer value => exact related.relation.answer value
  | countWithin units origin => exact related.relation.map (related.countWithin units origin _) _
  | random => exact related.relation.map related.random _

theorem apply (related : Related R w v) (callee : Callable) (arguments : List Value) :
    R _ (w.apply callee arguments) (v.apply callee arguments) := by
  cases callee with
  | foreign serial => exact related.call serial arguments
  | helper _ _ task => exact related.perform task arguments

theorem callValue (related : Related R w v) (value : Value) (arguments : List Value) :
    R _ (w.callValue value arguments) (v.callValue value arguments) := by
  cases value with
  | function callee => exact related.apply callee arguments
  | _ => exact related.relation.answer Value.absent

theorem callMethod (related : Related R w v) (value : Value) (name : String)
    (arguments : List Value) :
    R _ (w.callMethod value name arguments) (v.callMethod value name arguments) := by
  cases value with
  | host object =>
      have same := related.methods object
      simp only [World.callMethod]
      cases found : w.method? object with
      | none =>
          have missing : v.method? object = none := by simpa [found] using same
          simp only [missing]
          exact related.relation.bind (related.member object name) fun value =>
            related.callValue value arguments
      | some method =>
          have known : (v.method? object).isSome = true := by simpa [found] using same.symm
          obtain ⟨method', found'⟩ := Option.isSome_iff_exists.mp known
          simp only [found']
          exact related.method object method method' found found' name arguments
  | _ =>
      exact related.relation.bind (related.memberOf _ name) fun value =>
        related.callValue value arguments

theorem indexSequence (related : Related R w v) (value : Value) (part : Nat → Option Value)
    (key : Value) :
    R _ (w.indexSequence value part key) (v.indexSequence value part key) := by
  unfold World.indexSequence
  split
  · exact related.relation.answer _
  · split
    · exact related.memberOf value _
    · exact related.relation.answer Value.absent

theorem index (related : Related R w v) (value key : Value) :
    R _ (w.index value key) (v.index value key) := by
  cases value with
  | array items => exact related.indexSequence _ _ key
  | string contents => exact related.indexSequence _ _ key
  | object _ | host _ =>
      simp only [World.index]
      split
      · exact related.memberOf _ _
      · exact related.relation.answer Value.absent
  | _ => exact related.relation.answer Value.absent

end Related

end World

/-- A world is related to itself by equality. -/
theorem World.related_eq (w : World s) : World.Related (fun _ x y => x = y) w w where
  relation := ⟨fun _ => rfl, fun first second => by rw [first, funext second]⟩
  call _ _ := rfl
  member _ _ := rfl
  methods _ := rfl
  method _ _ _ found found' _ _ := by rw [Option.some.inj (found.symm.trans found')]
  random := rfl

/-! ## Evaluation -/

/-- The names that a shape looks up. -/
def Shape.names : Shape → List String
  | constant _ | health _ _ | healthFraction _ _ => []
  | distance _ | distanceRange _ _ => ["closest"]
  | either left right | both left right => left.names ++ right.names

namespace World.Related

open Trigger.Expr

variable {R : ∀ α : Type, StateM s α → StateM t α → Prop} {scope : Scope s} {scope' : Scope t}

theorem callIn (related : Related R scope.world scope'.world) (callee : Value)
    {arguments : StateM s (List Value)} {arguments' : StateM t (List Value)}
    (same : R _ arguments arguments') :
    R _ (scope.call callee arguments) (scope'.call callee arguments') := by
  cases callee with
  | function f => exact related.relation.bind same fun vs => related.apply f vs
  | _ => exact related.relation.answer Value.absent

mutual

/-- Evaluations of an expression are related if the worlds are, and the looks at its names. -/
theorem eval (related : Related R scope.world scope'.world) : ∀ e : Expr,
    (∀ name ∈ e.names, R _ (scope.resolve name) (scope'.resolve name)) →
      R _ (e.eval scope) (e.eval scope')
  | .literal value, _ => related.relation.answer _
  | .name word, names => names word (by simp)
  | .array items, names => related.relation.map (evalAll related items names) _
  | .object entries, names => related.relation.map (evalEntries related entries names) _
  | .call function arguments, names => by
      simp only [names_call, List.forall_mem_cons] at names
      exact related.relation.bind names.1 fun callee =>
        related.callIn callee (evalAll related arguments names.2)
  | .chain base links, names => by
      simp only [names_chain, List.forall_mem_append] at names
      exact related.relation.bind (eval related base names.1) fun value =>
        evalLinks related links names.2 value
  | .unary op operand, names => related.relation.map (eval related operand names) _
  | .binary op left right, names => by
      simp only [names_binary, List.forall_mem_append] at names
      refine related.relation.bind (eval related left names.1) fun l => ?_
      split
      · exact related.relation.answer l
      · exact related.relation.map (eval related right names.2) _

theorem evalAll (related : Related R scope.world scope'.world) : ∀ es : List Expr,
    (∀ name ∈ namesIn (nodesAll es), R _ (scope.resolve name) (scope'.resolve name)) →
      R _ (Expr.evalAll scope es) (Expr.evalAll scope' es)
  | [], _ => related.relation.answer []
  | e :: es, names => by
      simp only [namesIn_nodesAll_cons, List.forall_mem_append] at names
      exact related.relation.bind (eval related e names.1) fun v =>
        related.relation.map (evalAll related es names.2) _

theorem evalEntries (related : Related R scope.world scope'.world) :
    ∀ entries : List (String × Expr),
    (∀ name ∈ namesIn (nodesEntries entries), R _ (scope.resolve name) (scope'.resolve name)) →
      R _ (Expr.evalEntries scope entries) (Expr.evalEntries scope' entries)
  | [], _ => related.relation.answer []
  | (key, e) :: entries, names => by
      simp only [namesIn_nodesEntries_cons, List.forall_mem_append] at names
      exact related.relation.bind (eval related e names.1) fun v =>
        related.relation.map (evalEntries related entries names.2) _

theorem evalLinks (related : Related R scope.world scope'.world) : ∀ links : List Link,
    (∀ name ∈ namesIn (nodesLinks links), R _ (scope.resolve name) (scope'.resolve name)) →
      ∀ value : Value, R _ (Expr.evalLinks scope value links) (Expr.evalLinks scope' value links)
  | [], _, value => related.relation.answer value
  | link :: links, names, value => by
      simp only [namesIn_nodesLinks_cons, List.forall_mem_append] at names
      simp only [Expr.evalLinks]
      split
      · exact related.relation.answer Value.absent
      · exact related.relation.bind (evalLink related link names.1 value) fun next =>
          evalLinks related links names.2 next

theorem evalLink (related : Related R scope.world scope'.world) : ∀ link : Link,
    (∀ name ∈ namesIn (nodesLink link), R _ (scope.resolve name) (scope'.resolve name)) →
      ∀ value : Value, R _ (Expr.evalLink scope value link) (Expr.evalLink scope' value link)
  | .member word _, _, value => related.memberOf value word
  | .method word arguments _, names, value => by
      have all := evalAll related arguments names
      cases value with
      | host receiver =>
          exact related.relation.bind all fun vs => related.callMethod (.host receiver) word vs
      | _ =>
          exact related.relation.bind (related.memberOf _ word) fun callee =>
            related.callIn callee all
  | .index key, names, value =>
      related.relation.bind (eval related key names) fun k => related.index value k

end

theorem closestEnemySquared (related : Related R scope.world scope'.world)
    (closest : R _ (scope.resolve "closest") (scope'.resolve "closest")) (subject : Value) :
    R _ (Shape.closestEnemySquared scope subject) (Shape.closestEnemySquared scope' subject) := by
  refine related.relation.bind (related.position subject) fun origin => ?_
  cases origin with
  | none => exact related.relation.answer none
  | some origin =>
      refine related.relation.bind closest fun closest => ?_
      refine related.relation.bind (related.callMethod closest "enemy" []) fun enemy => ?_
      exact related.relation.map (related.position enemy) _

/-- Evaluations of a shape are related if the worlds are, and the looks at its names. -/
theorem evalShape (related : Related R scope.world scope'.world) (subject : Value)
    (shape : Shape)
    (names : ∀ name ∈ shape.names, R _ (scope.resolve name) (scope'.resolve name)) :
    R _ (shape.eval scope subject) (shape.eval scope' subject) := by
  induction shape with
  | constant value => exact related.relation.answer _
  | health op limit => exact related.relation.map (related.memberOf subject "hp") _
  | healthFraction op fraction =>
      exact related.relation.bind (related.memberOf subject "hp") fun health =>
        related.relation.map (related.memberOf subject "maxHp") _
  | distance limit | distanceRange lower upper =>
      have closest := names "closest" (List.mem_singleton.mpr rfl)
      exact related.relation.map (related.closestEnemySquared closest subject) _
  | either left right ihl ihr =>
      obtain ⟨first, second⟩ := List.forall_mem_append.mp names
      refine related.relation.bind (ihl first) fun value => ?_
      split
      · exact related.relation.answer value
      · exact ihr second
  | both left right ihl ihr =>
      obtain ⟨first, second⟩ := List.forall_mem_append.mp names
      refine related.relation.bind (ihl first) fun value => ?_
      split
      · exact ihr second
      · exact related.relation.answer value

end World.Related

end Trigger
