import Trigger.Proofs.Cache.Tiers

/-!
# What evaluation looks up

Evaluation asks the context for the names that its expression looks up, and for no others.  The name
of the subject is bound before the context is asked.  A shape has no tree, but the only name it
looks up is one of each tree that it stands for.

So three relations between evaluations need only be checked for these names (`World.Related`): that
two contexts lead to the same action, that no group is produced unless it owns one of the names, and
that two contexts which resolve the names alike lead to the same value.
-/

namespace Trigger

variable {s t : Type}

/-- The names that an expression looks up in the context, where the subject has the given name. -/
def Expr.contextNames (e : Expr) (subjectName : String) : List String :=
  e.names.filter (· ≠ subjectName)

theorem Expr.mem_contextNames {e : Expr} {subjectName name : String} :
    name ∈ e.contextNames subjectName ↔ name ∈ e.names ∧ name ≠ subjectName := by
  simp [contextNames]

/-! ## Plans -/

/-- A shape looks up no other names than the trees that it stands for. -/
theorem Shape.Describes.names_subset {shape : Shape} {e : Expr} (describes : shape.Describes e) :
    shape.names ⊆ e.contextNames Config.shapeSubject := by
  intro name mem
  rw [Expr.mem_contextNames]
  induction describes with
  | constant | health | healthFraction => cases mem
  | distance | distanceRange =>
      obtain rfl := List.mem_singleton.mp mem
      exact ⟨by simp [Expr.ofBound, Expr.enemyDistance], by decide⟩
  | either _ _ ihl ihr | both _ _ ihl ihr =>
      rw [Expr.names_binary, List.mem_append]
      rcases List.mem_append.mp mem with mem | mem
      · exact ⟨.inl (ihl mem).1, (ihl mem).2⟩
      · exact ⟨.inr (ihr mem).1, (ihr mem).2⟩

/-- The names that a plan looks up in the context. -/
def Plan.names : Plan → List String
  | shape _ recognized => recognized.names
  | tree e subjectName => e.contextNames subjectName
  | nothing => []

/-- The plan of an expression looks up names of the expression only. -/
theorem Cache.names_planOf {config : Config} {text : String} {e : Expr}
    (parsed : Expr.ofText text.toList = .ok e) :
    (planOf config text).names ⊆ e.contextNames config.subjectName := by
  have walked : (treeOf config text).names ⊆ e.contextNames config.subjectName := by
    simp [treeOf, parsed, Plan.names]
  unfold planOf
  split
  · rename_i specializes
    cases found : Shape.specialize? text.toList with
    | none => exact walked
    | some pair =>
        obtain ⟨form, shape⟩ := pair
        obtain ⟨e', parsed', describes⟩ := Shape.parses_of_specialize? found
        cases parsed.symm.trans parsed'
        have named : config.subjectName = Config.shapeSubject := by
          simpa using (Bool.and_eq_true_iff.mp specializes).2
        rw [named]
        exact describes.names_subset
  · exact walked

/-- Evaluations of a plan are related if the worlds are, and the looks at its names. -/
theorem World.Related.evalPlan {R : ∀ α : Type, StateM s α → StateM t α → Prop}
    {scope : Scope s} {scope' : Scope t} (related : World.Related R scope.world scope'.world)
    (subject : Value) (plan : Plan)
    (names : ∀ name ∈ plan.names, R _ (scope.resolve name) (scope'.resolve name)) :
    R _ (plan.eval scope subject) (plan.eval scope' subject) := by
  cases plan with
  | shape form recognized => exact related.evalShape subject recognized names
  | tree e subjectName =>
      have bound : World.Related R (scope.bind subjectName subject).world
        (scope'.bind subjectName subject).world := related
      refine bound.eval e fun name mem => ?_
      simp only [Scope.bind]
      split
      · exact related.relation.answer subject
      · rename_i apart
        exact names name (Expr.mem_contextNames.mpr ⟨mem, apart⟩)
  | nothing => exact related.relation.answer Value.absent

/-! ## What evaluation produces -/

namespace Live

/-- Only groups at the given places have been produced between two states. -/
def Adds (places : Nat → Prop) (l l' : Live s) : Prop :=
  ∀ place, (l'.at? place).isSome → (l.at? place).isSome ∨ places place

variable {places : Nat → Prop}

theorem Adds.refl (l : Live s) : Adds places l l := fun _ => .inl

theorem Adds.trans {l l' l'' : Live s} (first : Adds places l l') (second : Adds places l' l'') :
    Adds places l l'' :=
  fun place found => (second place found).elim (first place) .inr

theorem adds_demand {place : Nat} (allowed : places place) (produce : StateM s Bindings)
    (l : Live s) : Adds places l (demand place produce l).2 := by
  unfold demand
  cases known : l.at? place with
  | some bindings => exact .refl l
  | none =>
      intro other found
      change (Live.at? ⟨_, _⟩ other).isSome at found
      rw [Context.at?_cons] at found
      split at found
      · rename_i same
        exact .inr (same ▸ allowed)
      · exact .inl found

end Live

/-- A world produces nothing in a live context. -/
theorem World.related_adds (w : World s) (places : Nat → Prop) :
    World.Related (fun _ (x _ : StateM (Live s) _) => ∀ l, Live.Adds places l (x l).2)
      w.inside w.inside where
  relation := ⟨fun _ => .refl, fun first second l => (first l).trans (second _ _)⟩
  call _ _ _ := .refl _
  member _ _ _ := .refl _
  methods _ := rfl
  method object method _ found _ name arguments l := by
    obtain ⟨answers, -, rfl⟩ := Option.map_eq_some_iff.mp found
    exact Live.Adds.refl l
  random _ := .refl _

/-! ## Contexts -/

namespace Context

/-- A group at the place owns one of the names. -/
def OwnsSome (c : Context s) (names : List String) (place : Nat) : Prop :=
  ∃ name ∈ names, ∃ g, c.owner? name = some (place, g)

/-- Resolving a name produces the group of its owner at most. -/
theorem adds_resolve (c : Context s) {names : List String} {name : String} (mem : name ∈ names)
    (l : Live s) : Live.Adds (c.OwnsSome names) l (c.resolve name l).2 := by
  show Live.Adds _ l (c.resolve? name l).2
  unfold Context.resolve?
  cases owner : c.owner? name with
  | none => exact .refl l
  | some found =>
      obtain ⟨place, g⟩ := found
      cases kind : g.kind with
      | eager bindings =>
          simp only [kind]
          exact .refl l
      | lazy declared produce =>
          simp only [kind]
          exact Live.adds_demand ⟨name, mem, g, owner⟩ produce l

theorem ownerFrom?_append {name : String} {last : Group s} (other : last.declares name = false)
    (start : Nat) (groups : List (Group s)) :
    ownerFrom? name start (groups ++ [last]) = ownerFrom? name start groups := by
  induction groups generalizing start with
  | nil => simp [ownerFrom?, other]
  | cons g groups ih => simp only [List.cons_append, ownerFrom?, ih]

/-- A group behind the others does not change what a name that it does not declare resolves to. -/
theorem resolve_add (c : Context s) (group : String) {kind : GroupKind s} {name : String}
    (other : name ∉ (Group.mk group kind).names) :
    (c.add group kind).resolve name = c.resolve name := by
  have owner : (c.add group kind).owner? name = c.owner? name :=
    ownerFrom?_append (by simpa [Group.declares] using other) 0 c.groups
  simp only [resolve, resolve?, owner]

/-- What a name resolves to, where the producers answer the same each time. -/
theorem resolve_eq_valueIn {c : Context s} (steady : c.Steady) {l : Live s}
    (faithful : c.Faithful l) (state : s) (name : String) :
    (c.resolve name l).1 = c.valueIn (c.boundIn state) name :=
  ((c.mirrors_resolve (c.boundIn state) name).answers steady faithful).1

end Context

/-! ## Sessions -/

namespace Setting

variable {setting : Setting s}

/-- A call produces groups only that own a name which the plan looks up. -/
theorem adds_call (setting : Setting s) (plan : Plan) (l : Live s) :
    Live.Adds (setting.context.OwnsSome plan.names) l (setting.call plan l).2 := by
  let places := setting.context.OwnsSome plan.names
  have related : World.Related _ setting.scope.world setting.scope.world :=
    setting.world.related_adds places
  have names : ∀ name ∈ plan.names, ∀ l, Live.Adds places l (setting.scope.resolve name l).2 :=
    fun name mem l => setting.context.adds_resolve mem l
  exact related.evalPlan setting.subject plan names l

/-- A call is the same in two contexts where the names of the plan resolve by the same actions. -/
theorem call_congr {plan : Plan} {context : Context s}
    (same : ∀ name ∈ plan.names, context.resolve name = setting.context.resolve name) :
    { setting with context := context }.call plan = setting.call plan := by
  have related : World.Related _ (context.scope setting.world).world setting.scope.world :=
    setting.world.inside.related_eq
  exact related.evalPlan setting.subject plan same

/-- The world and the producers of a setting answer the same each time, and what has been produced
comes from the producers. -/
structure Steady (setting : Setting s) (live : Live s) : Prop where
  world : setting.world.Steady
  context : setting.context.Steady
  live : setting.context.Faithful live

/-- Without a state, a call in a steady setting has the answer that the world has in any one. -/
theorem Steady.call_still {live : Live s} (steady : setting.Steady live) (plan : Plan)
    (state : s) :
    (setting.call plan live).1 = answer (plan.eval
      (setting.context.stillScope setting.world (setting.context.boundIn state) state)
      setting.subject) :=
  ((Session.mirrors_plan (steady.world.mirrors_scope _ (setting.context.boundIn state) state)
    setting.subject plan).answers steady.context steady.live).1

/-- A call has the same value in two steady settings of one world and one subject, where the names
of the plan resolve to the same values. -/
theorem Steady.call_eq {setting' : Setting s} {plan : Plan} {live live' : Live s}
    (steady : setting.Steady live) (steady' : setting'.Steady live')
    (worlds : setting.world = setting'.world) (subjects : setting.subject = setting'.subject)
    (same : ∀ name ∈ plan.names,
      (setting.context.resolve name live).1 = (setting'.context.resolve name live').1) :
    (setting.call plan live).1 = (setting'.call plan live').1 := by
  rw [steady.call_still plan live.world, steady'.call_still plan live.world, worlds, subjects]
  have related : World.Related _
      (setting.context.stillScope setting'.world (setting.context.boundIn live.world)
        live.world).world
      (setting'.context.stillScope setting'.world (setting'.context.boundIn live.world)
        live.world).world := (setting'.world.still live.world).related_eq
  refine congrArg answer (related.evalPlan setting'.subject plan fun name mem => ?_)
  have equal := same name mem
  rw [Context.resolve_eq_valueIn steady.context steady.live live.world,
    Context.resolve_eq_valueIn steady'.context steady'.live live.world] at equal
  exact congrArg pure equal

end Setting

namespace Session

/-- The session behind the way into another context, with all that has been produced. -/
def inContext (session : Session s) (context : Context s) : Session s :=
  (session.step (.enter { session.setting with context := context } session.live)).2

section
variable {config : Config} {session : Session s} (reached : session.Reached config)
include reached

/-- An evaluation is the call of the plan of its text. -/
theorem evaluate_eq (text : String) :
    (session.step (.evaluate text)).1 =
        .value (session.setting.call (Cache.planOf config text) session.live).1 ∧
      (session.step (.evaluate text)).2.live =
        (session.setting.call (Cache.planOf config text) session.live).2 := by
  rw [step_evaluate reached.cache.1, reached.cache.2]
  exact ⟨rfl, rfl⟩

variable {text : String} {e : Expr} (parsed : Expr.ofText text.toList = .ok e)
include parsed

/-- An evaluation produces no group but one that owns a name of the expression. -/
theorem adds_evaluate :
    Live.Adds (session.setting.context.OwnsSome (e.contextNames config.subjectName))
      session.live (session.step (.evaluate text)).2.live := by
  intro place found
  rw [(evaluate_eq reached text).2] at found
  refine (session.setting.adds_call _ session.live place found).imp_right ?_
  exact fun ⟨name, mem, owner⟩ => ⟨name, Cache.names_planOf parsed mem, owner⟩

/-- A group that binds nothing but the name of the subject is not looked at. -/
theorem evaluate_add (group : String) {kind : GroupKind s}
    (binds : (Group.mk group kind).names = [config.subjectName]) :
    let entered := session.inContext (session.setting.context.add group kind)
    (entered.step (.evaluate text)).1 = (session.step (.evaluate text)).1 ∧
      (entered.step (.evaluate text)).2.live = (session.step (.evaluate text)).2.live := by
  intro entered
  have same : entered.setting.call (Cache.planOf config text) =
      session.setting.call (Cache.planOf config text) := by
    refine Setting.call_congr fun name mem => session.setting.context.resolve_add group ?_
    rw [binds, List.mem_singleton]
    exact (Expr.mem_contextNames.mp (Cache.names_planOf parsed mem)).2
  obtain ⟨value, live⟩ := evaluate_eq reached text
  have reached' : entered.Reached config := reached.step _
  obtain ⟨value', live'⟩ := evaluate_eq reached' text
  rw [value, value', live, live', same]
  exact ⟨rfl, rfl⟩

/-- In two steady contexts that resolve the names of the expression alike, it has one value. -/
theorem evaluate_congr {other : Session s} (reached' : other.Reached config)
    (steady : session.setting.Steady session.live) (steady' : other.setting.Steady other.live)
    (worlds : session.setting.world = other.setting.world)
    (subjects : session.setting.subject = other.setting.subject)
    (same : ∀ name ∈ e.contextNames config.subjectName,
      (session.setting.context.resolve name session.live).1 =
        (other.setting.context.resolve name other.live).1) :
    (session.step (.evaluate text)).1 = (other.step (.evaluate text)).1 := by
  rw [(evaluate_eq reached text).1, (evaluate_eq reached' text).1]
  exact congrArg Answer.value (steady.call_eq steady' worlds subjects fun name mem =>
    same name (Cache.names_planOf parsed mem))

end

/-- An evaluation asks the context for the names that the expression of its text looks up, and for
no others, whatever was kept before and by whichever tier.  It produces no lazy group but one that
owns such a name.  A group that binds the name of the subject, eagerly or lazily, changes neither
the value nor the state.  And in steady settings with one world and one subject, two contexts that
resolve the names to the same values lead to the same value. -/
theorem evaluate_looks_up_names {config : Config} {text : String} {e : Expr}
    (parsed : Expr.ofText text.toList = .ok e) {session : Session s}
    (reached : session.Reached config) :
    let names := e.contextNames config.subjectName
    let evaluated := session.step (.evaluate text)
    (∀ place, (evaluated.2.live.at? place).isSome →
      (session.live.at? place).isSome ∨ session.setting.context.OwnsSome names place) ∧
    (∀ group kind, (Group.mk group kind).names = [config.subjectName] →
      let entered := session.inContext (session.setting.context.add group kind)
      (entered.step (.evaluate text)).1 = evaluated.1 ∧
        (entered.step (.evaluate text)).2.live = evaluated.2.live) ∧
    ∀ other : Session s, other.Reached config →
      session.setting.Steady session.live → other.setting.Steady other.live →
      session.setting.world = other.setting.world →
      session.setting.subject = other.setting.subject →
      (∀ name ∈ names, (session.setting.context.resolve name session.live).1 =
        (other.setting.context.resolve name other.live).1) →
      evaluated.1 = (other.step (.evaluate text)).1 := by
  intro names evaluated
  refine ⟨?_, ?_, ?_⟩
  · exact adds_evaluate reached parsed
  · exact fun group kind binds => evaluate_add reached parsed group binds
  · exact fun other reached' => evaluate_congr reached parsed reached'

/-- The counting setting with another group, which declares the name of the subject. -/
def crowdedSetting : Setting Nat :=
  { countingSetting with
    context := countingSetting.context.addLazyHelpers "crowd" ["self", "g"] fun n => ([], n + 1) }

theorem steady_crowdedSetting : crowdedSetting.Steady (.fresh 5) := by
  refine ⟨steady_countingSetting.1, ?_, Context.faithful_fresh _ 5⟩
  intro g mem names produce kind
  rcases List.mem_append.mp mem with mem | mem
  · exact steady_countingSetting.2 g mem names produce kind
  · rw [List.mem_singleton.mp mem] at kind
    cases kind
    exact fun _ _ => rfl

theorem evaluate_looks_up_names_crowded :
    let session := start {} countingSetting (.fresh 0)
    let other := start {} crowdedSetting (.fresh 5)
    let evaluated := session.step (.evaluate "f(self)")
    (∀ place, (evaluated.2.live.at? place).isSome →
      (session.live.at? place).isSome ∨ session.setting.context.OwnsSome ["f"] place) ∧
    (∀ group,
      let entered :=
        session.inContext (session.setting.context.add group (.eager [("self", .number 1)]))
      (entered.step (.evaluate "f(self)")).1 = evaluated.1 ∧
        (entered.step (.evaluate "f(self)")).2.live = evaluated.2.live) ∧
    evaluated.1 = (other.step (.evaluate "f(self)")).1 := by
  have known : (Expr.ofText "f(self)".toList).toOption.map Expr.names = some ["f", "self"] := by
    decide +kernel
  cases parsed : Expr.ofText "f(self)".toList with
  | error failure =>
      rw [parsed] at known
      cases known
  | ok e =>
      rw [parsed] at known
      have names : e.contextNames ({} : Config).subjectName = ["f"] := by
        rw [Expr.contextNames, Option.some.inj known]
        rfl
      obtain ⟨adds, unseen, equal⟩ :=
        evaluate_looks_up_names parsed (reached_start {} countingSetting (.fresh 0))
      rw [names] at adds equal
      refine ⟨adds, fun group => unseen group _ rfl, ?_⟩
      refine equal _ (reached_start {} crowdedSetting (.fresh 5)) ?_
        steady_crowdedSetting rfl rfl ?_
      · exact ⟨steady_countingSetting.1, steady_countingSetting.2, Context.faithful_fresh _ 0⟩
      · intro name mem
        obtain rfl := List.mem_singleton.mp mem
        rfl

end Session

end Trigger
