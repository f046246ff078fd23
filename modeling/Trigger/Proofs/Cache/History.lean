import Trigger.Proofs.Cache.Steps
import Trigger.Proofs.World.Steady

/-!
# A session answers as if it had just begun

A session keeps predicates, parses and the bindings of lazy groups.  Where the world and the
producers of the context answer the same each time, none of this shows in the values that it
answers.

* A memo is sound where each entry is what its text stands for: an outcome is `Expr.ofText`, and a
  plan is `Cache.planOf`, the plan that an empty cache makes.
* A predicate that is kept under a name has the plan of the text that was last compiled for the
  name.
* What the lazy groups have produced is what their producers answer.

`Session.Sound` is these three together.  Each step keeps it, and from a sound session the value of
a step depends on nothing but the text, the subject and the settings.
-/

namespace Trigger

variable {s : Type}

/-! ## Steady contexts -/

namespace Context

/-- The producers of a context answer the same each time. -/
def Steady (c : Context s) : Prop :=
  ∀ g ∈ c.groups, ∀ names produce, g.kind = .lazy names produce → Constant produce

/-- The bindings that the producers of lazy groups answer in the given state. -/
def boundIn (c : Context s) (state : s) (place : Nat) : Bindings :=
  match (c.groups[place]?).map Group.kind with
  | some (.lazy _ produce) => (produce state).1
  | _ => []

theorem Faithful.agrees {c : Context s} {l : Live s} (faithful : c.Faithful l) (steady : c.Steady)
    (state : s) : l.Agrees (c.boundIn state) := by
  intro place bindings kept
  obtain ⟨g, names, produce, before, found, kind, rfl⟩ := faithful place bindings kept
  have constant := steady g (List.mem_of_getElem? found) names produce kind
  simp only [boundIn, found, Option.map_some, kind]
  exact constant state before

end Context

/-- In a steady world and context, an action answers what it answers without a state. -/
theorem Mirrors.answers {α : Type} {c : Context s} {live : StateM (Live s) α}
    {still : StateM Unit α} {state : s} (mirrors : Mirrors c (c.boundIn state) live still)
    (steady : c.Steady) {l : Live s} (faithful : c.Faithful l) :
    (live l).1 = (still ()).1 ∧ c.Faithful (live l).2 := by
  have after := (mirrors.grows l).faithful faithful
  exact ⟨mirrors.value l (after.agrees steady state), after⟩

/-! ## Memos -/

namespace Memo

variable {α : Type}

/-- Every entry has the property that belongs to its text. -/
def Holds (m : Memo α) (property : String → α → Prop) : Prop :=
  ∀ text value, m.find? text = some value → property text value

theorem holds_empty (property : String → α → Prop) : (empty : Memo α).Holds property := by
  intro text value found
  cases found

theorem Holds.insert {m : Memo α} {property : String → α → Prop} (holds : m.Holds property)
    {text : String} {value : α} (fits : property text value) :
    (m.insert text value).Holds property := by
  intro other found known
  by_cases same : other = text
  · subst same
    rw [find?_insert_self] at known
    cases old : m.find? other with
    | none =>
        rw [old] at known
        cases known
        exact fits
    | some first =>
        rw [old] at known
        cases known
        exact holds other first old
  · rw [find?_insert_of_ne m same] at known
    exact holds other found known

end Memo

namespace Registry

/-- Every outcome that is kept is that of its text. -/
def Sound (r : Registry) : Prop :=
  r.known.Holds fun text parsed => parsed.outcome = Expr.ofText text.toList

theorem sound_empty (keepsFailures : Bool) : (empty keepsFailures).Sound := Memo.holds_empty _

theorem Sound.parse {r : Registry} (sound : r.Sound) (text : String) :
    (r.parse text).1.outcome = Expr.ofText text.toList ∧ (r.parse text).2.Sound := by
  unfold Registry.parse
  cases found : r.known.find? text with
  | some parsed => exact ⟨sound text parsed found, sound⟩
  | none =>
      simp only
      split
      · exact ⟨rfl, Memo.Holds.insert sound rfl⟩
      · exact ⟨rfl, sound⟩

end Registry

namespace Cache

/-- The plan of a text that is only parsed. -/
def treeOf (config : Config) (text : String) : Plan :=
  match Expr.ofText text.toList with
  | .ok expr => .tree expr config.subjectName
  | .error _ => .nothing

/-- The plan of a text. -/
def planOf (config : Config) (text : String) : Plan :=
  if config.specializes then
    match Shape.specialize? text.toList with
    | some (form, shape) => .shape form shape
    | none => treeOf config text
  else treeOf config text

/-- Everything that is kept is what its text stands for. -/
structure Sound (c : Cache) : Prop where
  /-- The parses are. -/
  registry : c.registry.Sound
  /-- The predicates are. -/
  predicates : c.predicates.Holds fun text p => p.plan = planOf c.config text

theorem sound_empty (config : Config) : (empty config).Sound :=
  ⟨Registry.sound_empty _, Memo.holds_empty _⟩

theorem Sound.clear {c : Cache} (_ : c.Sound) : c.clear.Sound :=
  ⟨Memo.holds_empty _, Memo.holds_empty _⟩

theorem Sound.clearRegistry {c : Cache} (sound : c.Sound) : c.clearRegistry.Sound :=
  ⟨Memo.holds_empty _, sound.predicates⟩

theorem Sound.parse {c : Cache} (sound : c.Sound) (text : String) :
    (c.parse text).1.outcome = Expr.ofText text.toList ∧ (c.parse text).2.Sound :=
  have ⟨outcome, registry⟩ := sound.registry.parse text
  ⟨outcome, registry, sound.predicates⟩

theorem Sound.parsePlan {c : Cache} (sound : c.Sound) (text : String) :
    (c.parsePlan text).1 = treeOf c.config text ∧ (c.parsePlan text).2.Sound := by
  obtain ⟨outcome, registry⟩ := sound.registry.parse text
  unfold Cache.parsePlan treeOf
  rw [← outcome]
  cases parsed : (c.registry.parse text).1.outcome with
  | ok expr => simpa [parsed] using registry
  | error e => simpa [parsed] using registry

theorem Sound.plan {c : Cache} (sound : c.Sound) (text : String) :
    (c.plan text).1 = planOf c.config text ∧ (c.plan text).2.Sound := by
  unfold Cache.plan planOf
  cases c.config.specializes with
  | false => exact sound.parsePlan text
  | true =>
      cases Shape.specialize? text.toList with
      | none => exact sound.parsePlan text
      | some found => exact ⟨rfl, sound.registry⟩

theorem Sound.compile {c : Cache} (sound : c.Sound) (text : String) :
    (c.compile text).1.plan = planOf c.config text ∧ (c.compile text).2.Sound := by
  unfold Cache.compile
  cases found : c.predicates.find? text with
  | some p => exact ⟨sound.predicates text p found, sound.registry, sound.predicates⟩
  | none =>
      obtain ⟨plan, registry⟩ := sound.plan text
      exact ⟨plan, registry, Memo.Holds.insert sound.predicates plan⟩

theorem config_compile (c : Cache) (text : String) : (c.compile text).2.config = c.config := by
  unfold Cache.compile
  cases c.predicates.find? text <;> rfl

end Cache

/-! ## Sessions -/

namespace Step

/-- The step stays in a world and a context, where it may change the subject and the state. -/
def Stays (w : World s) (c : Context s) : Step s → Prop
  | .enter setting live => setting.world = w ∧ setting.context = c ∧ c.Faithful live
  | _ => True

/-- The texts that were last compiled for each name, behind a step. -/
def keep (texts : String → Option String) : Step s → String → Option String
  | .compile text (some name) => fun other => if other = name then some text else texts other
  | _ => texts

end Step

namespace Session

theorem step_evaluate {session : Session s} (sound : session.cache.Sound) (text : String) :
    session.step (.evaluate text) =
      { session with cache := (session.cache.compile text).2 }.answerValue
        (session.setting.call (Cache.planOf session.cache.config text)) := by
  simp only [Session.step, (sound.compile text).1]

theorem step_evaluateText {session : Session s} (sound : session.cache.Sound) (text : String) :
    session.step (.evaluateText text) =
      { session with cache := (session.cache.parse text).2 }.answerValue
        (session.setting.call (Cache.treeOf session.cache.config text)) := by
  obtain ⟨outcome, -⟩ := sound.parse text
  have call : session.setting.evalParsed (session.cache.parse text).1
      session.cache.config.subjectName =
        session.setting.call (Cache.treeOf session.cache.config text) := by
    rw [Setting.evalParsed, Cache.treeOf, outcome]
    cases Expr.ofText text.toList <;> rfl
  rw [← call]
  rfl

/-- Every step keeps the settings, and what the cache keeps is what its texts stand for. -/
theorem cache_step {session : Session s} (sound : session.cache.Sound) (step : Step s) :
    (session.step step).2.cache.Sound ∧
      (session.step step).2.cache.config = session.cache.config := by
  rw [cache_step_eq]
  refine Step.onCache_induction (P := fun c => c.Sound ∧ c.config = session.cache.config)
    ?_ ?_ ⟨sound, rfl⟩ step ?_ ?_
  · rintro c text ⟨sound, same⟩
    exact ⟨(sound.compile text).2, (Cache.config_compile c text).trans same⟩
  · rintro c text ⟨sound, same⟩
    exact ⟨(sound.parse text).2, same⟩
  · exact fun _ => ⟨sound.clear, rfl⟩
  · exact fun _ => ⟨sound.clearRegistry, rfl⟩

/-- So does every run. -/
theorem cache_run {session : Session s} (sound : session.cache.Sound) (steps : List (Step s)) :
    (session.run steps).2.cache.Sound ∧
      (session.run steps).2.cache.config = session.cache.config := by
  induction steps generalizing session with
  | nil => exact ⟨sound, rfl⟩
  | cons step steps ih =>
      obtain ⟨first, same⟩ := cache_step sound step
      obtain ⟨rest, same'⟩ := ih first
      exact ⟨rest, same'.trans same⟩

/-- The session is behind some steps, from the start, with a cache of the given settings. -/
def Reached (config : Config) (session : Session s) : Prop :=
  ∃ setting live steps, ((start config setting live).run steps).2 = session

theorem reached_start (config : Config) (setting : Setting s) (live : Live s) :
    Reached config (start config setting live) :=
  ⟨setting, live, [], rfl⟩

theorem Reached.step {config : Config} {session : Session s} (reached : Reached config session)
    (step : Step s) : Reached config (session.step step).2 := by
  obtain ⟨setting, live, steps, rfl⟩ := reached
  exact ⟨setting, live, steps ++ [step], run_concat _ steps step⟩

/-- A session that is reached keeps nothing but what its texts stand for. -/
theorem Reached.cache {config : Config} {session : Session s} (reached : Reached config session) :
    session.cache.Sound ∧ session.cache.config = config := by
  obtain ⟨setting, live, steps, rfl⟩ := reached
  exact cache_run (Cache.sound_empty config) steps

/-- Everything that a session keeps is what it stands for.  The given texts are those that were last
compiled for each name. -/
structure Sound (config : Config) (w : World s) (c : Context s) (texts : String → Option String)
    (session : Session s) : Prop where
  /-- The settings are the given ones. -/
  settings : session.cache.config = config
  /-- So is the world. -/
  world : session.setting.world = w
  /-- So is the context. -/
  context : session.setting.context = c
  /-- The cache keeps nothing but what its texts stand for. -/
  cache : session.cache.Sound
  /-- The predicates that are kept have the plans of their texts. -/
  kept : ∀ name, (session.kept.lookup name).map Predicate.plan =
    (texts name).map (Cache.planOf config)
  /-- What has been produced comes from the producers of the context. -/
  live : c.Faithful session.live

theorem sound_start (config : Config) (setting : Setting s) {live : Live s}
    (faithful : setting.context.Faithful live) :
    Sound config setting.world setting.context (fun _ => none) (start config setting live) :=
  ⟨rfl, rfl, rfl, Cache.sound_empty config, fun _ => rfl, faithful⟩

section
variable {config : Config} {w : World s} {c : Context s} {texts : String → Option String}
  {session : Session s}

theorem Sound.withCache (sound : Sound config w c texts session) {cache : Cache}
    (same : cache.config = session.cache.config) (holds : cache.Sound) :
    Sound config w c texts { session with cache := cache } :=
  ⟨same.trans sound.settings, sound.world, sound.context, holds, sound.kept, sound.live⟩

theorem Sound.withLive (sound : Sound config w c texts session) {live : Live s}
    (faithful : c.Faithful live) : Sound config w c texts { session with live := live } :=
  ⟨sound.settings, sound.world, sound.context, sound.cache, sound.kept, faithful⟩

theorem Sound.compile (sound : Sound config w c texts session) (text : String) :
    (session.cache.compile text).1.plan = Cache.planOf config text ∧
      Sound config w c texts { session with cache := (session.cache.compile text).2 } := by
  obtain ⟨plan, holds⟩ := sound.cache.compile text
  rw [sound.settings] at plan
  exact ⟨plan, sound.withCache (Cache.config_compile _ _) holds⟩

theorem Sound.parse (sound : Sound config w c texts session) (text : String) :
    (session.parse text).1.outcome = Expr.ofText text.toList ∧
      Sound config w c texts (session.parse text).2 := by
  obtain ⟨outcome, holds⟩ := sound.cache.parse text
  exact ⟨outcome, sound.withCache rfl holds⟩

/-- Behind a compiled text that is kept under a name. -/
theorem Sound.keep (sound : Sound config w c texts session) {p : Predicate} {text name : String}
    (plan : p.plan = Cache.planOf config text) :
    Sound config w c (Step.keep texts (.compile text (some name) : Step s))
      { session with kept := (name, p) :: session.kept } := by
  refine ⟨sound.settings, sound.world, sound.context, sound.cache, ?_, sound.live⟩
  intro other
  simp only [Step.keep]
  by_cases same : other = name
  · simp [same, plan]
  · have apart : (other == name) = false := by simpa using same
    simp only [List.lookup_cons, apart, if_neg same]
    exact sound.kept other

end

/-! ### Steps -/

theorem mirrors_plan {c : Context s} {bound : Nat → Bindings} {live : Scope (Live s)}
    {still : Scope Unit} (mirrors : Scope.Mirrors c bound live still) (subject : Value)
    (plan : Plan) : Mirrors c bound (plan.eval live subject) (plan.eval still subject) := by
  cases plan with
  | shape form shape => exact mirrors.evalShape subject shape
  | tree expr name => exact (mirrors.bind name subject).eval expr
  | nothing => exact .answer Value.absent

section
variable {config : Config} {w : World s} {c : Context s} {texts : String → Option String}
  {session : Session s}

theorem Sound.act {α : Type} (sound : Sound config w c texts session) (contexts : c.Steady)
    {state : s} {action : StateM (Live s) α} {still : StateM Unit α}
    (mirrors : Mirrors c (c.boundIn state) action still) :
    (session.act action).1 = (still ()).1 ∧ Sound config w c texts (session.act action).2 := by
  obtain ⟨value, faithful⟩ := mirrors.answers contexts sound.live
  exact ⟨value, sound.withLive faithful⟩

theorem Sound.scope (sound : Sound config w c texts session) (worlds : w.Steady)
    (bound : Nat → Bindings) (state : s) :
    Scope.Mirrors c bound session.setting.scope (c.stillScope w bound state) := by
  rw [Setting.scope, sound.world, sound.context]
  exact worlds.mirrors_scope c bound state

variable (worlds : w.Steady) (contexts : c.Steady) (state : s)
include worlds contexts

/-- The value of a plan in a session. -/
theorem Sound.answerPlan (sound : Sound config w c texts session) (plan : Plan) :
    (session.answerValue (session.setting.call plan)).1 =
        .value (plan.eval (c.stillScope w (c.boundIn state) state) session.setting.subject ()).1 ∧
      Sound config w c texts (session.answerValue (session.setting.call plan)).2 := by
  have mirrors := mirrors_plan (sound.scope worlds (c.boundIn state) state)
    session.setting.subject plan
  obtain ⟨value, holds⟩ := sound.act contexts mirrors
  exact ⟨congrArg Answer.value value, holds⟩

theorem Sound.evaluate (sound : Sound config w c texts session) (text : String) :
    (session.step (.evaluate text)).1 =
        .value ((Cache.planOf config text).eval (c.stillScope w (c.boundIn state) state)
          session.setting.subject ()).1 ∧
      Sound config w c texts (session.step (.evaluate text)).2 := by
  obtain ⟨-, holds⟩ := sound.compile text
  rw [step_evaluate sound.cache, sound.settings]
  exact holds.answerPlan worlds contexts state _

theorem Sound.evaluateText (sound : Sound config w c texts session) (text : String) :
    (session.step (.evaluateText text)).1 =
        .value ((Cache.treeOf config text).eval (c.stillScope w (c.boundIn state) state)
          session.setting.subject ()).1 ∧
      Sound config w c texts (session.step (.evaluateText text)).2 := by
  obtain ⟨-, holds⟩ := sound.parse text
  rw [step_evaluateText sound.cache, sound.settings]
  exact holds.answerPlan worlds contexts state _

theorem Sound.call (sound : Sound config w c texts session) (name : String) :
    (session.step (.call name)).1 =
        (match texts name with
        | some text =>
          .value ((Cache.planOf config text).eval (c.stillScope w (c.boundIn state) state)
            session.setting.subject ()).1
        | none => .unknown) ∧
      Sound config w c texts (session.step (.call name)).2 := by
  have kept := sound.kept name
  simp only [Session.step]
  cases found : session.kept.lookup name with
  | none =>
      have missing : texts name = none := by simpa [found] using kept.symm
      rw [missing]
      exact ⟨rfl, sound⟩
  | some p =>
      rw [found] at kept
      obtain ⟨text, known, plan⟩ := Option.map_eq_some_iff.mp kept.symm
      simp only [known]
      rw [plan]
      exact sound.answerPlan worlds contexts state p.plan

theorem Sound.evaluateAlone (sound : Sound config w c texts session) (text : String) :
    (session.step (.evaluateAlone text)).1 =
        (match Expr.ofText text.toList with
        | .ok expr => .value (expr.eval (c.stillScope w (c.boundIn state) state) ()).1
        | .error e => .failure e) ∧
      Sound config w c texts (session.step (.evaluateAlone text)).2 := by
  obtain ⟨outcome, holds⟩ := sound.parse text
  simp only [Session.step, ← outcome]
  cases (session.parse text).1.outcome with
  | error e => exact ⟨rfl, holds⟩
  | ok expr =>
      have mirrors := (holds.scope worlds (c.boundIn state) state).eval expr
      obtain ⟨value, holds⟩ := holds.act contexts mirrors
      exact ⟨congrArg Answer.value value, holds⟩

omit worlds contexts in
theorem Sound.parseStep (sound : Sound config w c texts session) (text : String) :
    (session.step (.parse text)).1 =
        (match Expr.ofText text.toList with
        | .ok expr => .tree expr
        | .error e => .failure e) ∧
      Sound config w c texts (session.step (.parse text)).2 := by
  obtain ⟨outcome, holds⟩ := sound.parse text
  simp only [Session.step, ← outcome]
  cases (session.parse text).1.outcome <;> exact ⟨rfl, holds⟩

omit state in
/-- Every step keeps what a session stands for. -/
theorem Sound.step (sound : Sound config w c texts session) {step : Step s}
    (stays : step.Stays w c) : Sound config w c (step.keep texts) (session.step step).2 := by
  have state := session.live.world
  cases step with
  | compile text keep =>
      obtain ⟨plan, holds⟩ := sound.compile text
      cases keep with
      | none => exact holds
      | some name => exact holds.keep plan
  | call name => exact (sound.call worlds contexts state name).2
  | same a b =>
      simp only [Session.step]
      split <;> exact sound
  | evaluate text => exact (sound.evaluate worlds contexts state text).2
  | evaluateText text => exact (sound.evaluateText worlds contexts state text).2
  | evaluateAlone text => exact (sound.evaluateAlone worlds contexts state text).2
  | parse text => exact (sound.parseStep text).2
  | sameTree a b => exact ((sound.parse a).2.parse b).2
  | clear => exact sound.withCache rfl sound.cache.clear
  | clearRegistry => exact sound.withCache rfl sound.cache.clearRegistry
  | resolve name =>
      have resolves : Mirrors c (c.boundIn state) (session.setting.context.resolve? name)
          (pure (c.valueIn? (c.boundIn state) name)) := by
        rw [sound.context]
        exact c.mirrors_resolve? (c.boundIn state) name
      exact (sound.act contexts resolves).2
  | enter setting live =>
      obtain ⟨world, context, faithful⟩ := stays
      exact ⟨sound.settings, world, context, sound.cache, sound.kept, faithful⟩
  | _ => exact sound

omit state in
/-- So does every run. -/
theorem Sound.run (sound : Sound config w c texts session) {steps : List (Step s)}
    (stays : ∀ step ∈ steps, step.Stays w c) :
    Sound config w c (steps.foldl Step.keep texts) (session.run steps).2 := by
  induction steps generalizing texts session with
  | nil => exact sound
  | cons step steps ih =>
      obtain ⟨first, rest⟩ := List.forall_mem_cons.mp stays
      exact ih (sound.step worlds contexts first) rest

end

/-- Behind any steps in one steady world and context, every value is the one that a session answers
which has just begun, in any state of the world and whether or not it keeps failures.  A predicate
that is kept under a name answers as the text that was last compiled for it.  Every parse has the
outcome of its text. -/
theorem answers_as_at_start (config : Config) (setting : Setting s) (live : Live s)
    (steps : List (Step s)) (worlds : setting.world.Steady) (contexts : setting.context.Steady)
    (faithful : setting.context.Faithful live)
    (stays : ∀ step ∈ steps, step.Stays setting.world setting.context) (keeps : Bool) (state : s) :
    let session := ((start config setting live).run steps).2
    let fresh := start { config with keepsFailures := keeps } session.setting (.fresh state)
    (∀ text, (session.step (.evaluate text)).1 = (fresh.step (.evaluate text)).1) ∧
    (∀ text, (session.step (.evaluateText text)).1 = (fresh.step (.evaluateText text)).1) ∧
    (∀ text, (session.step (.evaluateAlone text)).1 = (fresh.step (.evaluateAlone text)).1) ∧
    (∀ name, (session.step (.call name)).1 =
      match steps.foldl Step.keep (fun _ => none) name with
      | some text => (fresh.step (.evaluate text)).1
      | none => .unknown) ∧
    (∀ text, (session.step (.parse text)).1 =
      match Expr.ofText text.toList with
      | .ok expr => .tree expr
      | .error e => .failure e) := by
  intro session fresh
  have sound : Sound config setting.world setting.context (steps.foldl Step.keep fun _ => none)
      session := (sound_start config setting faithful).run worlds contexts stays
  have start : Sound { config with keepsFailures := keeps } setting.world setting.context
      (fun _ => none) fresh := by
    have begun := sound_start { config with keepsFailures := keeps } session.setting
      (session.setting.context.faithful_fresh state)
    rwa [sound.world, sound.context] at begun
  refine ⟨?_, ?_, ?_, ?_, ?_⟩
  · intro text
    rw [(sound.evaluate worlds contexts state text).1,
      (start.evaluate worlds contexts state text).1]
    rfl
  · intro text
    rw [(sound.evaluateText worlds contexts state text).1,
      (start.evaluateText worlds contexts state text).1]
    rfl
  · intro text
    rw [(sound.evaluateAlone worlds contexts state text).1,
      (start.evaluateAlone worlds contexts state text).1]
  · intro name
    rw [(sound.call worlds contexts state name).1]
    cases List.foldl Step.keep (fun _ => none) steps name with
    | none => rfl
    | some text =>
        simp only [(start.evaluate worlds contexts state text).1]
        rfl
  · exact fun text => (sound.parseStep text).1

/-- A setting whose world counts what it is asked, with a function that is found on demand. -/
def countingSetting : Setting Nat where
  world :=
    { call := fun _ arguments n => (.array arguments, n + 1)
      member := fun _ _ n => (.absent, n + 1)
      method? := fun _ => none
      random := fun n => (0, n + 1) }
  context := Context.empty.addLazyHelpers "host" ["f"] fun n =>
    ([("f", .function (.foreign 0))], n + 1)
  subject := .null

theorem steady_countingSetting :
    countingSetting.world.Steady ∧ countingSetting.context.Steady := by
  refine ⟨⟨fun _ _ _ _ => rfl, fun _ _ _ _ => rfl, nofun, fun _ _ => rfl⟩, ?_⟩
  intro g mem names produce kind
  rw [List.mem_singleton.mp mem] at kind
  cases kind
  exact fun _ _ => rfl

theorem answers_as_at_start_counting :
    let steps : List (Step Nat) :=
      [.compile "f(1)" (some "p"), .call "p", .clear, .evaluateText "f(", .clearRegistry]
    let session := ((start {} countingSetting (.fresh 0)).run steps).2
    let fresh := start { keepsFailures := false } session.setting (.fresh 7)
    (∀ text, (session.step (.evaluate text)).1 = (fresh.step (.evaluate text)).1) ∧
    (∀ text, (session.step (.evaluateText text)).1 = (fresh.step (.evaluateText text)).1) ∧
    (∀ text, (session.step (.evaluateAlone text)).1 = (fresh.step (.evaluateAlone text)).1) ∧
    (∀ name, (session.step (.call name)).1 =
      match steps.foldl Step.keep (fun _ => none) name with
      | some text => (fresh.step (.evaluate text)).1
      | none => .unknown) ∧
    (∀ text, (session.step (.parse text)).1 =
      match Expr.ofText text.toList with
      | .ok expr => .tree expr
      | .error e => .failure e) :=
  answers_as_at_start {} countingSetting (.fresh 0) _ steady_countingSetting.1
    steady_countingSetting.2 (Context.faithful_fresh _ 0) (by simp [Step.Stays]) false 7

end Session

end Trigger
