import Trigger.Proofs.Cache.Names
import Trigger.Proofs.World.Journal

/-!
# Shapes are as lazy as their trees

A shape produces no lazy group that the tree of its text does not produce.  The only name that a
shape looks up is `closest`, and it is looked up by distances.  Up to the first distance that the
shape comes to, it does exactly what the tree does, so the tree comes to this distance as well, and
there it looks up `closest` (`Setting.lazier_of_describes`).  For this nothing is needed of the
world, and of `distance` only that it is a function, since its argument is evaluated then.

A shape without a distance does what its tree does (`Shape.Describes.eval_eq`), so their journals
are the same.
-/

namespace Trigger

variable {s α β : Type}

/-! ## What evaluation keeps -/

namespace Context

/-- The action grows each live state. -/
def Growing (c : Context s) (x : StateM (Live s) α) : Prop := ∀ l, c.Grows l (x l).2

variable {c : Context s} {name : String} {l l' : Live s}

theorem Growing.bind {x : StateM (Live s) α} {f : α → StateM (Live s) β} (first : c.Growing x)
    (second : ∀ a, c.Growing (f a)) : c.Growing (x >>= f) :=
  fun l => (first l).trans (second _ _)

theorem growing_compositional (c : Context s) :
    Compositional fun α (x _ : StateM (Live s) α) => c.Growing x where
  answer _ l := .refl c l
  bind first second := first.bind second

theorem growing_world (c : Context s) (w : World s) :
    World.Related (fun _ (x _ : StateM (Live s) _) => c.Growing x) w.inside w.inside where
  relation := c.growing_compositional
  call _ _ _ := ⟨fun _ _ => id, id⟩
  member _ _ _ := ⟨fun _ _ => id, id⟩
  methods _ := rfl
  method object method _ found _ name arguments l := by
    obtain ⟨answers, -, rfl⟩ := Option.map_eq_some_iff.mp found
    exact ⟨fun _ _ => id, id⟩
  random _ := ⟨fun _ _ => id, id⟩

theorem growing_resolve (c : Context s) (name : String) : c.Growing (c.resolve name) := fun l =>
  (c.mirrors_resolve l.bound name).grows l

/-- The owner of the name has been produced, if it is lazy. -/
def Settled (c : Context s) (name : String) (l : Live s) : Prop :=
  ∀ place g, c.owner? name = some (place, g) → g.isLazy = true → (l.at? place).isSome = true

theorem Settled.of_grows (settled : c.Settled name l) (grows : c.Grows l l') :
    c.Settled name l' := by
  intro place g owner isLazy
  obtain ⟨bindings, known⟩ := Option.isSome_iff_exists.mp (settled place g owner isLazy)
  rw [grows.keeps place bindings known]
  rfl

/-- Behind a look at a name its owner has been produced. -/
theorem settled_resolve (c : Context s) (name : String) (l : Live s) :
    c.Settled name (c.resolve name l).2 := by
  intro place g owner isLazy
  have reached := c.places_resolve name l
  rw [reach, owner] at reached
  simp only [isLazy, if_true] at reached
  rw [← Live.mem_places, reached]
  split
  · assumption
  · exact List.mem_cons_self

/-- The action settles the name. -/
def Settling (c : Context s) (name : String) (x : StateM (Live s) α) : Prop :=
  ∀ l, c.Faithful l → c.Settled name (x l).2

theorem Settling.bind {x : StateM (Live s) α} {f : α → StateM (Live s) β}
    (first : c.Settling name x) (second : ∀ a, c.Growing (f a)) : c.Settling name (x >>= f) :=
  fun l faithful => (first l faithful).of_grows (second _ _)

/-- The first action does what the second one does, unless the second one settles the name.  What
the second one produces comes from the producers. -/
structure Lazier (c : Context s) (name : String) (x y : StateM (Live s) α) : Prop where
  runs : ∀ l, c.Faithful l → x l = y l ∨ c.Settled name (y l).2
  grows : c.Growing y

theorem Lazier.of_eq {x y : StateM (Live s) α} (same : x = y) (grows : c.Growing y) :
    c.Lazier name x y :=
  ⟨fun l _ => .inl (congrFun same l), grows⟩

theorem Lazier.of_settling {x y : StateM (Live s) α} (settling : c.Settling name y)
    (grows : c.Growing y) : c.Lazier name x y :=
  ⟨fun l faithful => .inr (settling l faithful), grows⟩

/-- Once the name is settled, whatever comes behind keeps it so. -/
theorem lazier_compositional (c : Context s) (name : String) :
    Compositional fun _ (x y : StateM (Live s) _) => c.Lazier name x y where
  answer a := .of_eq rfl (c.growing_compositional.answer a)
  bind {α β x y f g} first second := by
    have behind (a : α) : c.Growing (g a) := (second a).grows
    refine ⟨fun l faithful => ?_, first.grows.bind behind⟩
    show f (x l).1 (x l).2 = g (y l).1 (y l).2 ∨ c.Settled name (g (y l).1 (y l).2).2
    cases first.runs l faithful with
    | inl same =>
        rw [same]
        exact (second (y l).1).runs (y l).2 ((first.grows l).faithful faithful)
    | inr settled => exact .inr (settled.of_grows (behind _ _))

end Context

/-! ## Distances settle `closest` -/

namespace Setting

variable (setting : Setting s)

/-- The scope of trees, which knows the subject by the name that shapes have for it. -/
def inner : Scope (Live s) := setting.scope.bind Config.shapeSubject setting.subject

theorem growing_inner :
    World.Related (fun _ (x _ : StateM (Live s) _) => setting.context.Growing x)
      setting.inner.world setting.inner.world :=
  setting.context.growing_world setting.world

theorem growing_resolve_inner (word : String) :
    setting.context.Growing (setting.inner.resolve word) := by
  simp only [inner, Scope.bind]
  split
  · exact setting.context.growing_compositional.answer setting.subject
  · exact setting.context.growing_resolve word

theorem growing_eval (e : Expr) : setting.context.Growing (e.eval setting.inner) :=
  setting.growing_inner.eval e fun word _ => setting.growing_resolve_inner word

/-- The name `distance` resolves to a function, whatever has been produced. -/
def HasDistance (setting : Setting s) : Prop :=
  ∀ l, setting.context.Faithful l → ∃ f, (setting.context.resolve "distance" l).1 = .function f

variable {setting}

theorem Measures.hasDistance (measures : setting.Measures) : setting.HasDistance := by
  intro l faithful
  refine ⟨.helper "distance" "distance"
    (.distance (setting.world.position setting.subject l.world).1), ?_⟩
  show ((setting.context.resolve? "distance" l).1).getD .absent = _
  rw [measures l faithful]
  rfl

/-- The function `distance` evaluates its argument, and this begins with `closest`. -/
theorem settling_enemyDistance (measured : setting.HasDistance) (optional : Bool) :
    setting.context.Settling "closest" ((Expr.enemyDistance optional).eval setting.inner) := by
  intro l faithful
  let links : List Link := [.method "enemy" [] false, .member "pos" optional]
  let rest (f : Callable) (value : Value) : StateM (Live s) Value := do
    let target ← Expr.evalLinks setting.inner value links
    setting.inner.world.apply f [target]
  have grows (f : Callable) (value : Value) : setting.context.Growing (rest f value) := by
    have walked := setting.growing_inner.evalLinks links
      (fun word _ => setting.growing_resolve_inner word) value
    exact walked.bind fun target => setting.growing_inner.apply f [target]
  obtain ⟨f, function⟩ := measured l faithful
  let looked := (setting.context.resolve "distance" l).2
  let closest := setting.context.resolve "closest" looked
  have run : (Expr.enemyDistance optional).eval setting.inner l = rest f closest.1 closest.2 := by
    show setting.inner.call (setting.context.resolve "distance" l).1
      (Expr.evalAll setting.inner [.chain (.name "closest") links]) looked = _
    rw [function]
    rfl
  rw [run]
  exact (setting.context.settled_resolve "closest" looked).of_grows (grows _ _ _)

theorem settling_ofBound (measured : setting.HasDistance) {bound : DistanceBound}
    (ordering : bound.op.isOrdering = true) (optional : Bool) :
    setting.context.Settling "closest" ((Expr.ofBound bound optional).eval setting.inner) := by
  rw [Expr.ofBound, Expr.eval_comparison _ ordering]
  exact (settling_enemyDistance measured optional).bind fun value =>
    setting.context.growing_compositional.answer _

/-- A shape does what a tree does that it stands for, unless the tree has looked up `closest`. -/
theorem lazier_of_describes (measured : setting.HasDistance) {shape : Shape} {e : Expr}
    (describes : shape.Describes e) :
    setting.context.Lazier "closest" (shape.eval setting.scope setting.subject)
      (e.eval setting.inner) := by
  have same {shape : Shape} {e : Expr} (describes : shape.Describes e)
      (unmeasured : shape.bounds = []) :
      setting.context.Lazier "closest" (shape.eval setting.scope setting.subject)
        (e.eval setting.inner) :=
    .of_eq (describes.eval_eq unmeasured setting.scope setting.subject) (setting.growing_eval e)
  have relation := setting.context.lazier_compositional "closest"
  induction describes with
  | constant value => exact same (.constant value) rfl
  | health ordering => exact same (.health ordering) rfl
  | healthFraction ordering => exact same (.healthFraction ordering) rfl
  | distance ordering =>
      exact .of_settling (settling_ofBound measured ordering _) (setting.growing_eval _)
  | @distanceRange lower upper optional optional' ordering _ =>
      -- The tree takes the distance a second time, if the lower bound holds.
      refine .of_settling ?_ (setting.growing_eval _)
      rw [Expr.eval_and]
      refine (settling_ofBound measured ordering optional).bind fun value => ?_
      split
      · exact setting.growing_eval _
      · exact setting.context.growing_compositional.answer value
  | either _ _ ihl ihr =>
      rw [Expr.eval_or]
      refine relation.bind ihl fun value => ?_
      split
      · exact relation.answer value
      · exact ihr
  | both _ _ ihl ihr =>
      rw [Expr.eval_and]
      refine relation.bind ihl fun value => ?_
      split
      · exact ihr
      · exact relation.answer value

/-! ## What is produced and what is done -/

end Setting

theorem Shape.eq_closest_of_mem_names {shape : Shape} {name : String} (mem : name ∈ shape.names) :
    name = "closest" := by
  induction shape with
  | constant | health | healthFraction => cases mem
  | distance | distanceRange => exact List.mem_singleton.mp mem
  | either _ _ ihl ihr | both _ _ ihl ihr => exact (List.mem_append.mp mem).elim ihl ihr

/-- An owner whose bindings have been produced is lazy. -/
theorem Context.Faithful.isLazy {c : Context s} {l : Live s} (faithful : c.Faithful l)
    {name : String} {place : Nat} {g : Group s} (owner : c.owner? name = some (place, g))
    (produced : (l.at? place).isSome) : g.isLazy = true := by
  obtain ⟨bindings, known⟩ := Option.isSome_iff_exists.mp produced
  obtain ⟨names, produce, -, kind, -⟩ := faithful.of_owner owner known
  simp [Group.isLazy, kind]

namespace Setting

variable {setting : Setting s}

theorem growing_call_shape (setting : Setting s) (form : Form) (shape : Shape) :
    setting.context.Growing (setting.call (.shape form shape)) := by
  have related : World.Related (fun _ (x _ : StateM (Live s) _) => setting.context.Growing x)
      setting.scope.world setting.scope.world := setting.context.growing_world setting.world
  exact related.evalShape setting.subject shape fun name _ => setting.context.growing_resolve name

/-- What a shape has produced, a tree that it stands for has produced, too. -/
theorem produced_of_describes (measured : setting.HasDistance) {shape : Shape} {e : Expr}
    (describes : shape.Describes e) (form : Form) {live : Live s}
    (faithful : setting.context.Faithful live) {place : Nat}
    (produced : ((setting.call (.shape form shape) live).2.at? place).isSome) :
    ((setting.call (.tree e Config.shapeSubject) live).2.at? place).isSome := by
  have lazier := lazier_of_describes measured describes
  cases lazier.runs live faithful with
  | inl same =>
      rw [show setting.call (.shape form shape) live =
        setting.call (.tree e Config.shapeSubject) live from same] at produced
      exact produced
  | inr settled =>
      cases setting.adds_call (.shape form shape) live place produced with
      | inl before =>
          obtain ⟨bindings, known⟩ := Option.isSome_iff_exists.mp before
          have kept := (lazier.grows live).keeps place bindings known
          exact Option.isSome_iff_exists.mpr ⟨bindings, kept⟩
      | inr owned =>
          obtain ⟨name, mem, g, owner⟩ := owned
          obtain rfl := Shape.eq_closest_of_mem_names mem
          have after := (setting.growing_call_shape form shape live).faithful faithful
          exact settled place g owner (after.isLazy owner produced)

/-- What the call of a plan does to its surroundings, in order. -/
def journal (setting : Setting s) (plan : Plan) (live : Live s) : List Deed :=
  (plan.eval setting.scope.journaled setting.subject ⟨live, []⟩).2.journal

/-- A call with a journal has the value and the state of the call. -/
theorem call_journaled (setting : Setting s) (plan : Plan) (live : Live s) :
    let t := plan.eval setting.scope.journaled setting.subject ⟨live, []⟩
    (t.1, t.2.live) = setting.call plan live := by
  have through := setting.scope.through_journaled
  exact through.world.evalPlan setting.subject plan (fun name _ => through.resolve name) ⟨live, []⟩

/-- A text that is specialized is an expression.  Called in the same state, its shape produces no
lazy group that its tree does not produce, where `distance` is the function of the standard helpers
for the subject.  If the text takes no distance, both do the same to their surroundings, in the same
order, as a call with a journal tells.  Such a call has the value and the state of the call. -/
theorem specialized_keeps_laziness {text : String} {form : Form} {shape : Shape}
    (found : Shape.specialize? text.toList = some (form, shape)) :
    ∃ e, Expr.ofText text.toList = .ok e ∧
      ∀ (setting : Setting s) (live : Live s),
        let fast := Plan.shape form shape
        let walked := Plan.tree e Config.shapeSubject
        (setting.Measures → setting.context.Faithful live →
          ∀ place, ((setting.call fast live).2.at? place).isSome →
            ((setting.call walked live).2.at? place).isSome) ∧
        (shape.bounds = [] → setting.journal fast live = setting.journal walked live) ∧
        ∀ plan, let told := plan.eval setting.scope.journaled setting.subject ⟨live, []⟩
          (told.1, told.2.live) = setting.call plan live := by
  obtain ⟨e, parsed, describes⟩ := Shape.parses_of_specialize? found
  refine ⟨e, parsed, fun setting live => ⟨fun measures faithful place produced => ?_,
    fun unmeasured => ?_, fun plan => setting.call_journaled plan live⟩⟩
  · exact produced_of_describes measures.hasDistance describes form faithful produced
  · have same := describes.eval_eq unmeasured setting.scope.journaled setting.subject
    exact congrArg (fun run => (run ⟨live, []⟩).2.journal) same

/-- A scout of the host with little health, and a lazy group that finds an enemy three steps
away. -/
def scouting : Setting Nat where
  world :=
    { call := fun _ _ n => (.absent, n)
      member := fun _ name n => (if name = "hp" then .number 1 else .point (0, 0), n + 1)
      method? := fun _ => none
      random := fun n => (0, n) }
  context :=
    (Context.empty.addHelpers "distance" (Helper.distanceFrom (some (0, 0)))).addLazyHelpers
      "closest" ["closest"] fun n =>
        ([("closest",
          .helpers "closest" [("enemy", .answer (.ofEntries [("pos", .point (3, 0))]))])],
          n + 1)
  subject := .host ⟨0, "Scout"⟩

theorem specialized_keeps_laziness_scouting :
    (∃ e, Expr.ofText "true && distance(closest.enemy().pos) < 5".toList = .ok e ∧
      ((scouting.call (.tree e "self") (.fresh 0)).2.at? 1).isSome) ∧
    ∃ e, Expr.ofText "true && self.hp < 5".toList = .ok e ∧
      scouting.journal (.tree e "self") (.fresh 0) = [.read ⟨0, "Scout"⟩ "hp"] := by
  constructor
  · have found : Shape.specialize? "true && distance(closest.enemy().pos) < 5".toList =
      some (.conjunction, .both (.constant true) (.distance ⟨.less, Number.ofNat 5⟩)) := rfl
    obtain ⟨e, parsed, keeps⟩ := specialized_keeps_laziness (s := Nat) found
    refine ⟨e, parsed, (keeps scouting (.fresh 0)).1 (fun _ _ => rfl) ?_ 1 rfl⟩
    exact Context.faithful_fresh _ 0
  · have found : Shape.specialize? "true && self.hp < 5".toList =
      some (.conjunction, .both (.constant true) (.health .less (Number.ofNat 5))) := rfl
    have once : scouting.journal
        (.shape .conjunction (.both (.constant true) (.health .less (Number.ofNat 5))))
        (.fresh 0) = [.read ⟨0, "Scout"⟩ "hp"] := rfl
    obtain ⟨e, parsed, keeps⟩ := specialized_keeps_laziness (s := Nat) found
    exact ⟨e, parsed, ((keeps scouting (.fresh 0)).2.1 rfl).symm.trans once⟩

end Setting

end Trigger
