import Trigger.Proofs.Cache.History
import Trigger.Proofs.Shape.Squared

/-!
# Both ways to evaluate a text agree

A cache answers a text of a known shape straight from the host, and the parser's way walks the tree.
In a steady world both have the same value, for every text and every cache, however it was used
before: one after the other in one context, in either order, and side by side where the lazy groups
of the context are steady, too.

What both depend on is what the lazy groups have bound in the end.  So the values are compared in
the bindings of a state behind both, in which the distance to the closest enemy has been taken as
well.

A shape compares squares where the tree compares distances.  That this decides alike is kept apart
as `Setting.Exact`, and it holds of the shape of each text (`Setting.exact_of_specialize?`).
-/

namespace Trigger

variable {s : Type}

namespace Live

/-- The bindings that have been produced. -/
def bound (l : Live s) (place : Nat) : Bindings := (l.at? place).getD []

theorem agrees_bound (l : Live s) : l.Agrees l.bound := by
  intro place bindings found
  rw [bound, found, Option.getD_some]

end Live

namespace Setting

/-- The name `distance` resolves to the function that the standard helpers build for the subject. -/
def Measures (setting : Setting s) : Prop :=
  ∀ l, setting.context.Faithful l →
    (setting.context.resolve? "distance" l).1 =
      (Helper.distance setting.world setting.subject l.world).1.find? "distance"

/-- The comparisons of squares in a shape decide as those of distances. -/
def Exact (setting : Setting s) (shape : Shape) : Prop :=
  ∀ bound ∈ shape.bounds, ∀ l, setting.context.Faithful l →
    ∀ d ∈ (Shape.closestEnemySquared setting.scope setting.subject l).1, bound.Exact d

/-- The shape of a text decides so in each setting. -/
theorem exact_of_specialize? (setting : Setting s) {cs : List Char} {form : Form} {shape : Shape}
    (found : Shape.specialize? cs = some (form, shape)) : setting.Exact shape := by
  intro bound mem l _ d measured
  obtain ⟨p, q, rfl⟩ := Shape.exists_squaredDistance measured
  exact Shape.exact_of_specialize? found bound mem p q

/-- Two plans have the same value in a state. -/
structure Agree (setting : Setting s) (live : Live s) (p q : Plan) : Prop where
  /-- The second one has it behind the first. -/
  forth : (setting.call q (setting.call p live).2).1 = (setting.call p live).1
  /-- The first one has it behind the second. -/
  back : (setting.call p (setting.call q live).2).1 = (setting.call q live).1
  /-- Where the lazy groups are steady, both have it at once. -/
  beside : setting.context.Steady → (setting.call p live).1 = (setting.call q live).1

/-- The state behind a look at `distance` and at the closest enemy. -/
def settled (setting : Setting s) (l : Live s) : Live s :=
  (Shape.closestEnemySquared setting.scope setting.subject
    (setting.context.resolve? "distance" l).2).2

variable {setting : Setting s} (worlds : setting.world.Steady)
include worlds

theorem mirrors_scope (bound : Nat → Bindings) (state : s) :
    Scope.Mirrors setting.context bound setting.scope
      (setting.context.stillScope setting.world bound state) :=
  worlds.mirrors_scope setting.context bound state

theorem grows_call (plan : Plan) (l : Live s) : setting.context.Grows l (setting.call plan l).2 :=
  (Session.mirrors_plan (mirrors_scope worlds l.bound l.world) setting.subject plan).grows l

theorem grows_settled (l : Live s) : setting.context.Grows l (setting.settled l) :=
  ((setting.context.mirrors_resolve? l.bound "distance").grows l).trans
    (((mirrors_scope worlds l.bound l.world).closestEnemySquared setting.subject).grows _)

/-- A plan has the value that it has without a state, in bindings that its state agrees with. -/
theorem call_eq (plan : Plan) {l : Live s} {bound : Nat → Bindings} (state : s)
    (agrees : (setting.call plan l).2.Agrees bound) :
    (setting.call plan l).1 =
      answer (plan.eval (setting.context.stillScope setting.world bound state) setting.subject) :=
  (Session.mirrors_plan (mirrors_scope worlds bound state) setting.subject plan).value l agrees

/-- Two plans have the same value without a state, in the bindings of any settled one. -/
def Same (setting : Setting s) (state : s) (p q : Plan) : Prop :=
  ∀ bound l, setting.context.Faithful l → (setting.settled l).Agrees bound →
    answer (p.eval (setting.context.stillScope setting.world bound state) setting.subject) =
      answer (q.eval (setting.context.stillScope setting.world bound state) setting.subject)

/-- Behind one of the plans the other one has the same value. -/
theorem Same.behind {live : Live s} {p q : Plan} (same : setting.Same live.world p q)
    (faithful : setting.context.Faithful live) :
    (setting.call q (setting.call p live).2).1 = (setting.call p live).1 := by
  let l := (setting.call q (setting.call p live).2).2
  have grown := (grows_call worlds p live).trans (grows_call worlds q _)
  have agrees : l.Agrees (setting.settled l).bound :=
    (setting.settled l).agrees_bound.of_grows (grows_settled worlds l)
  rw [call_eq worlds q live.world agrees,
    call_eq worlds p live.world (agrees.of_grows (grows_call worlds q _))]
  exact (same _ l (grown.faithful faithful) (setting.settled l).agrees_bound).symm

theorem Same.agree {live : Live s} {p q : Plan} (same : setting.Same live.world p q)
    (faithful : setting.context.Faithful live) : setting.Agree live p q where
  forth := same.behind worlds faithful
  back := by
    have reversed : setting.Same live.world q p :=
      fun bound l before agrees => (same bound l before agrees).symm
    exact reversed.behind worlds faithful
  beside contexts := by
    have agrees (l : Live s) (grows : setting.context.Grows live l) :
        l.Agrees (setting.context.boundIn live.world) :=
      (grows.faithful faithful).agrees contexts live.world
    rw [call_eq worlds p live.world (agrees _ (grows_call worlds p live)),
      call_eq worlds q live.world (agrees _ (grows_call worlds q live))]
    exact same _ live faithful (agrees _ (grows_settled worlds live))

/-- A shape has the value of a tree that it stands for, in the bindings of a settled state. -/
theorem same_of_describes {shape : Shape} {e : Expr} (describes : shape.Describes e)
    (measures : setting.Measures) (exact : setting.Exact shape) {bound : Nat → Bindings}
    {l : Live s} (faithful : setting.context.Faithful l)
    (agrees : (setting.settled l).Agrees bound) (state : s) :
    answer (shape.eval (setting.context.stillScope setting.world bound state) setting.subject) =
      answer (e.eval ((setting.context.stillScope setting.world bound state).bind
        Config.shapeSubject setting.subject)) := by
  have mirrors := mirrors_scope worlds bound state
  have resolving := setting.context.mirrors_resolve? bound "distance"
  have measuring := mirrors.closestEnemySquared setting.subject
  have looked := agrees.of_grows (measuring.grows (setting.context.resolve? "distance" l).2)
  have position : (setting.world.position setting.subject l.world).1 =
      answer ((setting.world.still state).position setting.subject) := by
    have inside := (mirrors.world.related.position setting.subject).value l
    have same : setting.scope.world.position setting.subject =
        Live.ofWorld (setting.world.position setting.subject) :=
      setting.world.inside_position setting.subject
    rw [same] at inside
    have before : l.Agrees bound := looked.of_grows (resolving.grows l)
    exact inside before
  refine describes.agrees ?_ ?_
  · have found : setting.context.valueIn? bound "distance" = some (.helper "distance" "distance"
        (.distance (setting.world.position setting.subject l.world).1)) := by
      have helper := resolving.value l looked
      rw [measures l faithful] at helper
      exact helper.symm
    show (setting.context.valueIn? bound "distance").getD .absent = _
    rw [found, position]
    rfl
  · intro b mem d measured
    refine exact b mem _ ((resolving.grows l).faithful faithful) d ?_
    have squared := measuring.value (setting.context.resolve? "distance" l).2 agrees
    rw [squared]
    exact measured

/-- A shape agrees with the tree of its text. -/
theorem agree_of_specialize? {live : Live s} (faithful : setting.context.Faithful live)
    (measures : setting.Measures) {cs : List Char} {form : Form} {shape : Shape}
    (found : Shape.specialize? cs = some (form, shape)) :
    ∃ e, Expr.ofText cs = .ok e ∧
      setting.Agree live (.shape form shape) (.tree e Config.shapeSubject) := by
  obtain ⟨e, parsed, describes⟩ := Shape.parses_of_specialize? found
  have exact := setting.exact_of_specialize? found
  have same : setting.Same live.world (.shape form shape) (.tree e Config.shapeSubject) :=
    fun _ _ before agrees => same_of_describes worlds describes measures exact before agrees _
  exact ⟨e, parsed, same.agree worlds faithful⟩

/-- A text has the same value by its plan and by its tree. -/
theorem agree_planOf {live : Live s} (faithful : setting.context.Faithful live)
    (measures : setting.Measures) (config : Config) (text : String) :
    setting.Agree live (Cache.planOf config text) (Cache.treeOf config text) := by
  have same (plan : Plan) : setting.Agree live plan plan :=
    Same.agree worlds (fun _ _ _ _ => rfl) faithful
  unfold Cache.planOf
  split
  · rename_i specializes
    cases found : Shape.specialize? text.toList with
    | none => exact same _
    | some pair =>
        obtain ⟨form, shape⟩ := pair
        obtain ⟨e, parsed, agree⟩ :=
          agree_of_specialize? worlds faithful measures found
        have named : config.subjectName = Config.shapeSubject := by
          simpa using (Bool.and_eq_true_iff.mp specializes).2
        simp only [Cache.treeOf, parsed, named]
        exact agree
  · exact same _

end Setting

/-! ## Sessions -/

namespace Session

/-- In a steady world, where `distance` resolves to the function of the standard helpers for the
subject, a cache evaluates each text as the tree of the text does: behind any steps, in either
order, and at once if the lazy groups are steady.  A text that is specialized is an expression, and
its shape agrees with its tree. -/
theorem evaluate_agrees_with_evaluateText (config : Config) (setting : Setting s) (live : Live s)
    (steps : List (Step s)) (text : String) :
    let session := ((start config setting live).run steps).2
    session.setting.world.Steady → session.setting.context.Faithful session.live →
    session.setting.Measures →
    let evaluated := session.step (.evaluate text)
    let walked := session.step (.evaluateText text)
    (evaluated.2.step (.evaluateText text)).1 = evaluated.1 ∧
    (walked.2.step (.evaluate text)).1 = walked.1 ∧
    (session.setting.context.Steady → evaluated.1 = walked.1) ∧
    ∀ form shape, Shape.specialize? text.toList = some (form, shape) →
      ∃ e, Expr.ofText text.toList = .ok e ∧
        session.setting.Agree session.live (.shape form shape) (.tree e Config.shapeSubject) := by
  intro session worlds faithful measures evaluated walked
  have sound : session.cache.Sound := (cache_run (Cache.sound_empty config) steps).1
  have agree := Setting.agree_planOf worlds faithful measures session.cache.config text
  have first : evaluated = _ := step_evaluate sound text
  have second : walked = _ := step_evaluateText sound text
  refine ⟨?_, ?_, ?_, ?_⟩
  · have behind : evaluated.2.cache.Sound ∧ evaluated.2.cache.config = session.cache.config :=
      cache_step sound (.evaluate text)
    rw [step_evaluateText behind.1, behind.2, first]
    exact congrArg Answer.value agree.forth
  · have behind : walked.2.cache.Sound ∧ walked.2.cache.config = session.cache.config :=
      cache_step sound (.evaluateText text)
    rw [step_evaluate behind.1, behind.2, second]
    exact congrArg Answer.value agree.back
  · intro contexts
    rw [first, second]
    exact congrArg Answer.value (agree.beside contexts)
  · intro form shape found
    exact Setting.agree_of_specialize? worlds faithful measures found

/-- A setting with an enemy three steps away, whose names do not change. -/
def duel : Setting Unit where
  world :=
    { call := fun _ _ => pure .absent
      member := fun _ _ => pure .absent
      method? := fun _ => none
      random := pure 0 }
  context :=
    (Context.empty.addHelpers "distance" (Helper.distanceFrom (some (0, 0)))).addHelpers "closest"
      [("closest", .helpers "closest" [("enemy", .answer (.ofEntries [("pos", .point (3, 0))]))])]
  subject := .ofEntries [("pos", .point (0, 0))]

theorem evaluate_agrees_with_evaluateText_duel :
    let text := "distance(closest.enemy().pos) < 5"
    let session := ((start {} duel (.fresh ())).run [.compile text none]).2
    let evaluated := session.step (.evaluate text)
    let walked := session.step (.evaluateText text)
    (evaluated.2.step (.evaluateText text)).1 = evaluated.1 ∧
    (walked.2.step (.evaluate text)).1 = walked.1 ∧
    (session.setting.context.Steady → evaluated.1 = walked.1) ∧
    ∀ form shape, Shape.specialize? text.toList = some (form, shape) →
      ∃ e, Expr.ofText text.toList = .ok e ∧
        session.setting.Agree session.live (.shape form shape) (.tree e Config.shapeSubject) := by
  exact evaluate_agrees_with_evaluateText {} duel (.fresh ()) [.compile _ none] _
    ⟨fun _ _ _ _ => rfl, fun _ _ _ _ => rfl, nofun, fun _ _ => rfl⟩
    (Context.faithful_fresh _ ()) (fun _ _ => rfl)

end Session

end Trigger
