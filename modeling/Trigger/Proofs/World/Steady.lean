import Trigger.Proofs.World.Related

/-!
# Steady worlds

A world is steady where it answers the same each time it is asked the same.  Then all that an answer
depends on is what the lazy groups of the context bind, and this is settled by what they have
produced in the end.  So evaluation in a live context mirrors evaluation without any state: the
names of lazy groups resolve in given bindings, and the world is `World.still`.

* `Context.Grows` is what an action may do to a live state: the state of the world may change in any
  way, but what has been produced stays, and it comes from the producers of the context.
* `Mirrors` says that an action grows the state and has the answer of another one, which has no
  state, as soon as what has been produced in the end is what the given bindings say.

Answers mirror and sequences keep it, so it holds of expressions and shapes as soon as it holds of
the answers of the world and of the names.
-/

namespace Trigger

variable {s α β : Type}

/-- The answer of an action does not depend on the state. -/
def Constant (action : StateM s α) : Prop := ∀ a b, (action a).1 = (action b).1

namespace World

/-- A world that answers the same each time it is asked the same. -/
structure Steady (w : World s) : Prop where
  /-- Its functions do. -/
  call : ∀ serial arguments, Constant (w.call serial arguments)
  /-- Its objects do, when they are asked for members. -/
  member : ∀ object name, Constant (w.member object name)
  /-- Its objects do, when methods are called. -/
  method : ∀ object method, w.method? object = some method →
    ∀ name arguments, Constant (method name arguments)
  /-- Its random numbers are all the same. -/
  random : Constant w.random

/-- The world that has no state, and the answers that a world has in the given one. -/
def still (w : World s) (state : s) : World Unit where
  call serial arguments := pure (w.call serial arguments state).1
  member object name := pure (w.member object name state).1
  method? object :=
    (w.method? object).map fun method name arguments => pure (method name arguments state).1
  random := pure (w.random state).1

end World

namespace Context

/-- What has been produced comes from the producers of the context. -/
def Faithful (c : Context s) (l : Live s) : Prop :=
  ∀ place bindings, l.at? place = some bindings →
    ∃ g names produce state, c.groups[place]? = some g ∧ g.kind = .lazy names produce ∧
      (produce state).1 = bindings

theorem faithful_fresh (c : Context s) (world : s) : c.Faithful (.fresh world) := by
  intro place bindings found
  cases found

/-- What an action in a context may do to a live state. -/
structure Grows (c : Context s) (l l' : Live s) : Prop where
  /-- What has been produced stays. -/
  keeps : ∀ place bindings, l.at? place = some bindings → l'.at? place = some bindings
  /-- What is produced comes from the producers. -/
  faithful : c.Faithful l → c.Faithful l'

theorem Grows.refl (c : Context s) (l : Live s) : c.Grows l l :=
  ⟨fun _ _ => id, id⟩

theorem Grows.trans {c : Context s} {l l' l'' : Live s} (first : c.Grows l l')
    (second : c.Grows l' l'') : c.Grows l l'' where
  keeps place bindings found := second.keeps place bindings (first.keeps place bindings found)
  faithful before := second.faithful (first.faithful before)

end Context

/-- What has been produced is what the given bindings say. -/
def Live.Agrees (l : Live s) (bound : Nat → Bindings) : Prop :=
  ∀ place bindings, l.at? place = some bindings → bound place = bindings

theorem Live.Agrees.of_grows {c : Context s} {l l' : Live s} {bound : Nat → Bindings}
    (agrees : l'.Agrees bound) (grows : c.Grows l l') : l.Agrees bound :=
  fun place bindings found => agrees place bindings (grows.keeps place bindings found)

/-- An action in a live context has the answer of one without a state, as soon as the bindings that
have been produced in the end are the given ones. -/
structure Mirrors (c : Context s) (bound : Nat → Bindings) (live : StateM (Live s) α)
    (still : StateM Unit α) : Prop where
  /-- The action grows the state. -/
  grows : ∀ l, c.Grows l (live l).2
  /-- The answers are the same. -/
  value : ∀ l, (live l).2.Agrees bound → (live l).1 = (still ()).1

namespace Mirrors

variable {c : Context s} {bound : Nat → Bindings}

theorem answer (a : α) : Mirrors c bound (pure a) (pure a) :=
  ⟨fun l => .refl c l, fun _ _ => rfl⟩

theorem bind {live : StateM (Live s) α} {still : StateM Unit α} {live' : α → StateM (Live s) β}
    {still' : α → StateM Unit β} (first : Mirrors c bound live still)
    (second : ∀ a, Mirrors c bound (live' a) (still' a)) :
    Mirrors c bound (live >>= live') (still >>= still') where
  grows l := (first.grows l).trans ((second _).grows _)
  value l agrees := by
    show (live' (live l).1 (live l).2).1 = (still' (still ()).1 ()).1
    have same : (live l).1 = (still ()).1 := first.value l (agrees.of_grows ((second _).grows _))
    rw [← same]
    exact (second _).value _ agrees

theorem ofWorld {action : StateM s α} (constant : Constant action) (state : s) :
    Mirrors c bound (Live.ofWorld action) (pure (action state).1) where
  grows _ := ⟨fun _ _ => id, id⟩
  value l _ := constant l.world state

/-- Answers mirror themselves, and sequences keep it. -/
theorem compositional (c : Context s) (bound : Nat → Bindings) :
    Compositional fun _ live still => Mirrors c bound live still :=
  ⟨fun a => answer a, fun first second => first.bind second⟩

theorem map {live : StateM (Live s) α} {still : StateM Unit α}
    (mirrors : Mirrors c bound live still)
    (f : α → β) : Mirrors c bound (do return f (← live)) (do return f (← still)) :=
  (compositional c bound).map mirrors f

end Mirrors

/-! ## Operations of a world -/

namespace World

/-- A world in a live context has the answers of a world without a state. -/
structure Mirrors (c : Context s) (bound : Nat → Bindings) (live : World (Live s))
    (still : World Unit) : Prop where
  /-- Its functions do. -/
  call : ∀ serial arguments,
    Trigger.Mirrors c bound (live.call serial arguments) (still.call serial arguments)
  /-- Its objects do, when they are asked for members. -/
  member : ∀ object name,
    Trigger.Mirrors c bound (live.member object name) (still.member object name)
  /-- The same objects answer method calls. -/
  methods : ∀ object, (live.method? object).isSome = (still.method? object).isSome
  /-- These objects have the same answers to method calls. -/
  method : ∀ object method method', live.method? object = some method →
    still.method? object = some method' →
      ∀ name arguments, Trigger.Mirrors c bound (method name arguments) (method' name arguments)
  /-- The random numbers are the same. -/
  random : Trigger.Mirrors c bound live.random still.random

theorem Steady.mirrors {w : World s} (steady : w.Steady) (c : Context s) (bound : Nat → Bindings)
    (state : s) : Mirrors c bound w.inside (w.still state) where
  call serial arguments := .ofWorld (steady.call serial arguments) state
  member object name := .ofWorld (steady.member object name) state
  methods object := by simp [inside, still]
  method object method method' found found' := by
    intro name arguments
    simp only [inside, still, Option.map_eq_some_iff] at found found'
    obtain ⟨answers, known, rfl⟩ := found
    obtain ⟨answers', known', rfl⟩ := found'
    obtain rfl : answers = answers' := Option.some.inj (known.symm.trans known')
    exact .ofWorld (steady.method object answers known name arguments) state
  random := .ofWorld steady.random state

theorem Mirrors.related {c : Context s} {bound : Nat → Bindings} {live : World (Live s)}
    {still : World Unit} (mirrors : Mirrors c bound live still) :
    Related (fun _ x y => Trigger.Mirrors c bound x y) live still :=
  ⟨Trigger.Mirrors.compositional c bound, mirrors.call, mirrors.member, mirrors.methods,
    mirrors.method, mirrors.random⟩

end World

/-! ### Inside a live context -/

theorem Live.ofWorld_bind (action : StateM s α) (next : α → StateM s β) :
    Live.ofWorld (action >>= next) = Live.ofWorld action >>= fun a => Live.ofWorld (next a) := rfl

namespace World

theorem inside_memberOf (w : World s) (value : Value) (name : String) :
    w.inside.memberOf value name = Live.ofWorld (w.memberOf value name) := by
  cases value <;> rfl

theorem inside_pointOfMembers (w : World s) (value : Value) :
    w.inside.pointOfMembers value = Live.ofWorld (w.pointOfMembers value) := by
  simp only [pointOfMembers, inside_memberOf, Live.ofWorld_bind]
  congr 1
  funext x
  cases x.number? <;> rfl

theorem inside_pointOf (w : World s) (value : Value) :
    w.inside.pointOf value = Live.ofWorld (w.pointOf value) := by
  unfold pointOf
  split
  · rfl
  · exact inside_pointOfMembers w _
  · exact inside_pointOfMembers w _
  · rfl

/-- A unit has the same position in a live context. -/
theorem inside_position (w : World s) (unit : Value) :
    w.inside.position unit = Live.ofWorld (w.position unit) := by
  simp only [position, inside_memberOf, inside_pointOf, Live.ofWorld_bind]

end World

/-! ## Names -/

namespace Context

theorem getElem?_of_ownerFrom? {name : String} {start place : Nat} {groups : List (Group s)}
    {g : Group s} (owner : ownerFrom? name start groups = some (place, g)) :
    start ≤ place ∧ groups[place - start]? = some g := by
  induction groups generalizing start with
  | nil => cases owner
  | cons first groups ih =>
      simp only [ownerFrom?] at owner
      cases later : ownerFrom? name (start + 1) groups with
      | some found =>
          simp only [later, Option.some.injEq] at owner
          subst owner
          obtain ⟨le, found⟩ := ih later
          refine ⟨by omega, ?_⟩
          rw [show place - start = place - (start + 1) + 1 by omega]
          exact found
      | none =>
          simp only [later] at owner
          split at owner
          · cases owner
            simp
          · cases owner

theorem getElem?_of_owner? {c : Context s} {name : String} {place : Nat} {g : Group s}
    (owner : c.owner? name = some (place, g)) : c.groups[place]? = some g :=
  (getElem?_of_ownerFrom? owner).2

/-- What has been produced for an owner comes from its producer. -/
theorem Faithful.of_owner {c : Context s} {l : Live s} (faithful : c.Faithful l) {name : String}
    {place : Nat} {g : Group s} (owner : c.owner? name = some (place, g)) {bindings : Bindings}
    (known : l.at? place = some bindings) :
    ∃ names produce state, g.kind = .lazy names produce ∧ (produce state).1 = bindings := by
  obtain ⟨g', names, produce, state, found, kind, produced⟩ := faithful place bindings known
  obtain rfl : g = g' := Option.some.inj ((getElem?_of_owner? owner).symm.trans found)
  exact ⟨names, produce, state, kind, produced⟩

/-- The value that a name resolves to, if it resolves, where lazy groups have the given bindings. -/
def valueIn? (c : Context s) (bound : Nat → Bindings) (name : String) : Option Value :=
  match c.owner? name with
  | none => none
  | some (place, g) =>
    match g.kind with
    | .eager bindings => bindings.find? name
    | .lazy _ _ => (bound place).find? name

/-- The value of a name, where lazy groups have the given bindings. -/
def valueIn (c : Context s) (bound : Nat → Bindings) (name : String) : Value :=
  (c.valueIn? bound name).getD .absent

theorem at?_cons (world : s) (place other : Nat) (bindings : Bindings)
    (produced : List (Nat × Bindings)) :
    (Live.mk world ((place, bindings) :: produced)).at? other =
      if other = place then some bindings else (Live.mk world produced).at? other := by
  by_cases same : other = place
  · simp [Live.at?, same]
  · have apart : (other == place) = false := by simpa using same
    simp [Live.at?, List.lookup_cons, same, apart]

theorem mirrors_demand {c : Context s} {place : Nat} {g : Group s} {names : List String}
    {produce : StateM s Bindings} (found : c.groups[place]? = some g)
    (kind : g.kind = .lazy names produce) (bound : Nat → Bindings) :
    Mirrors c bound (Live.demand place produce) (pure (bound place)) := by
  constructor
  · intro l
    unfold Live.demand
    cases known : l.at? place with
    | some bindings => exact .refl c l
    | none =>
        constructor
        · intro other bindings kept
          show Live.at? ⟨_, _⟩ other = some bindings
          rw [at?_cons, if_neg]
          · exact kept
          · rintro rfl
            rw [known] at kept
            cases kept
        · intro faithful other bindings kept
          change Live.at? ⟨_, _⟩ other = some bindings at kept
          rw [at?_cons] at kept
          split at kept
          · rename_i same
            subst same
            cases kept
            exact ⟨g, names, produce, l.world, found, kind, rfl⟩
          · exact faithful other bindings kept
  · intro l
    unfold Live.demand
    cases known : l.at? place with
    | some bindings => exact fun agrees => (agrees place bindings known).symm
    | none =>
        intro agrees
        refine (agrees place _ ?_).symm
        show Live.at? ⟨_, _⟩ place = _
        rw [at?_cons, if_pos rfl]
        rfl

theorem mirrors_resolve? (c : Context s) (bound : Nat → Bindings) (name : String) :
    Mirrors c bound (c.resolve? name) (pure (c.valueIn? bound name)) := by
  unfold Context.resolve? valueIn?
  cases owner : c.owner? name with
  | none => exact .answer none
  | some found =>
      obtain ⟨place, g⟩ := found
      cases kind : g.kind with
      | eager bindings =>
          simp only [kind]
          exact .answer _
      | lazy names produce =>
          simp only [kind]
          exact (mirrors_demand (getElem?_of_owner? owner) kind bound).map _

theorem mirrors_resolve (c : Context s) (bound : Nat → Bindings) (name : String) :
    Mirrors c bound (c.resolve name) (pure (c.valueIn bound name)) :=
  (c.mirrors_resolve? bound name).map _

/-- The scope of a context in a steady world, where lazy groups have the given bindings and the
world has the answers of the given state. -/
def stillScope (c : Context s) (w : World s) (bound : Nat → Bindings) (state : s) : Scope Unit :=
  ⟨w.still state, fun name => pure (c.valueIn bound name)⟩

end Context

/-! ## Evaluation -/

namespace Scope

/-- A scope in a live context has the answers of a scope without a state. -/
structure Mirrors (c : Context s) (bound : Nat → Bindings) (live : Scope (Live s))
    (still : Scope Unit) : Prop where
  /-- The worlds have the same answers. -/
  world : World.Mirrors c bound live.world still.world
  /-- The names have the same values. -/
  resolve : ∀ name, Trigger.Mirrors c bound (live.resolve name) (still.resolve name)

namespace Mirrors

variable {c : Context s} {bound : Nat → Bindings} {live : Scope (Live s)} {still : Scope Unit}

theorem bind (mirrors : Mirrors c bound live still) (name : String) (value : Value) :
    Mirrors c bound (live.bind name value) (still.bind name value) where
  world := mirrors.world
  resolve word := by
    simp only [Scope.bind]
    split
    · exact .answer value
    · exact mirrors.resolve word

theorem eval (mirrors : Mirrors c bound live still) (e : Expr) :
    Trigger.Mirrors c bound (e.eval live) (e.eval still) :=
  mirrors.world.related.eval e fun name _ => mirrors.resolve name

theorem closestEnemySquared (mirrors : Mirrors c bound live still) (subject : Value) :
    Trigger.Mirrors c bound (Shape.closestEnemySquared live subject)
      (Shape.closestEnemySquared still subject) :=
  mirrors.world.related.closestEnemySquared (mirrors.resolve "closest") subject

theorem evalShape (mirrors : Mirrors c bound live still) (subject : Value) (shape : Shape) :
    Trigger.Mirrors c bound (shape.eval live subject) (shape.eval still subject) :=
  mirrors.world.related.evalShape subject shape fun name _ => mirrors.resolve name

end Mirrors

end Scope

theorem World.Steady.mirrors_scope {w : World s} (steady : w.Steady) (c : Context s)
    (bound : Nat → Bindings) (state : s) :
    Scope.Mirrors c bound (c.scope w) (c.stillScope w bound state) where
  world := steady.mirrors c bound state
  resolve name := c.mirrors_resolve bound name

end Trigger
