import Trigger.Proofs.Context.Resolution
import Trigger.Proofs.Expr.Sites

/-!
# From left to right, and at most once

Evaluation is observed through its scope: a `traced` scope does what the scope does, and notes what
it was asked for and at which site.  Evaluation in it has the same value and the same state, and
what it notes is a part of `Expr.effects` in the same order (`Along.eval`).  These have the names of
the expression in the order of the source, and each of them once.

An action is `Along` a list of effects if it notes a part of them.  Actions one after the other are
along the effects of both, and an action that is left out is along any effects.  So the proof
follows evaluation, and only has to see that it asks for nothing twice.

In a live context the groups that have been produced are those that the noted names reach, in the
order in which they are first reached.
-/

namespace Trigger

variable {s : Type}

/-- A state, and what has been done at which sites, the first in front. -/
structure Traced (s : Type) where
  state : s
  trace : List (Nat × Effect)

namespace Traced

variable {α : Type}

/-- The action, of which nothing is noted. -/
def quiet (x : StateM s α) : StateM (Traced s) α := fun t =>
  ((x t.state).1, ⟨(x t.state).2, t.trace⟩)

/-- The action, with an effect noted in front of it. -/
def noted (site : Nat) (effect : Effect) (x : StateM s α) : StateM (Traced s) α := fun t =>
  quiet x ⟨t.state, t.trace ++ [(site, effect)]⟩

end Traced

open Traced

/-- The world at a site, with the answers to calls and the random numbers noted. -/
def World.traced (w : World s) (site : Nat) : World (Traced s) where
  call serial arguments := noted site .call (w.call serial arguments)
  member object name := quiet (w.member object name)
  method? object :=
    (w.method? object).map fun method name arguments => noted site .call (method name arguments)
  random := noted site .draw w.random

/-- The scope at a site, with all that is noted. -/
def Scope.traced (scope : Scope s) (site : Nat) : Scope (Traced s) where
  world := scope.world.traced site
  resolve word := noted site (.lookup word) (scope.resolve word)

/-! ## What is done is the same -/

/-- The action on a traced state does what the other one does. -/
def Forgets (α : Type) (x : StateM (Traced s) α) (y : StateM s α) : Prop :=
  ∀ t, ((x t).1, (x t).2.state) = y t.state

theorem Forgets.compositional : Compositional (Forgets (s := s)) :=
  Through.compositional Traced.state

theorem World.forgets_traced (w : World s) (site : Nat) :
    World.Related Forgets (w.traced site) w where
  relation := Forgets.compositional
  call _ _ _ := rfl
  member _ _ _ := rfl
  methods _ := Option.isSome_map
  method object method method' found found' name arguments t := by
    have found : (w.method? object).map _ = some method := found
    rw [found', Option.map_some] at found
    cases found
    rfl
  random _ := rfl

theorem Scope.forgets_traced (scope : Scope s) (site : Nat) :
    Scope.Related Forgets (scope.traced site) scope :=
  ⟨scope.world.forgets_traced site, fun _ _ => rfl⟩

/-! ## What is noted -/

/-- The action notes a part of the effects, in their order. -/
def Along (effects : List (Nat × Effect)) {α : Type} (x : StateM (Traced s) α) : Prop :=
  ∀ t, ∃ done, (x t).2.trace = t.trace ++ done ∧ done.Sublist effects

namespace Along

variable {α β : Type} {effects more : List (Nat × Effect)} {x : StateM (Traced s) α}

theorem mono (along : Along effects x) (part : effects.Sublist more) : Along more x := fun t =>
  (along t).imp fun _ ⟨done, sub⟩ => ⟨done, sub.trans part⟩

theorem quiet (x : StateM s α) : Along [] (quiet x) := fun _ =>
  ⟨[], (List.append_nil _).symm, .slnil⟩

theorem noted (site : Nat) (effect : Effect) (x : StateM s α) :
    Along [(site, effect)] (noted site effect x) := fun _ => ⟨[(site, effect)], rfl, .refl _⟩

/-- An answer notes nothing. -/
theorem answer (effects : List (Nat × Effect)) (a : α) :
    Along effects (pure a : StateM (Traced s) α) := fun _ =>
  ⟨[], (List.append_nil _).symm, List.nil_sublist _⟩

theorem bind {f : α → StateM (Traced s) β} (first : Along effects x)
    (second : ∀ a, Along more (f a)) : Along (effects ++ more) (x >>= f) := by
  intro t
  obtain ⟨done, eq, sub⟩ := first t
  obtain ⟨done', eq', sub'⟩ := second (x t).1 (x t).2
  refine ⟨done ++ done', ?_, sub.append sub'⟩
  show ((f (x t).1) (x t).2).2.trace = _
  rw [eq', eq, List.append_assoc]

theorem map (along : Along effects x) (f : α → β) : Along effects (do return f (← x)) := by
  rw [← List.append_nil effects]
  exact along.bind fun _ => answer [] _

theorem silent_compositional :
    Compositional fun α (x _ : StateM (Traced s) α) => Along [] x :=
  ⟨fun a => answer [] a, fun first second => first.bind second⟩

end Along

/-! ### Operations of a world -/

namespace World

/-- The world at a site without what answers calls. -/
def mute (w : World s) (site : Nat) : World (Traced s) :=
  { w.traced site with
    call := fun _ _ => pure .absent
    method? := fun _ => none
    random := pure 0 }

theorem silent_mute (w : World s) (site : Nat) :
    World.Related (fun _ (x _ : StateM (Traced s) _) => Along [] x) (w.mute site)
      (w.mute site) where
  relation := Along.silent_compositional
  call _ _ := Along.answer [] _
  member object name := Along.quiet (w.member object name)
  methods _ := rfl
  method _ _ _ found := by cases found
  random := Along.answer [] _

variable (w : World s) (site : Nat)

/-- Only the members of objects are asked for, so nothing is noted. -/
theorem along_memberOf (value : Value) (name : String) :
    Along [] ((w.traced site).memberOf value name) :=
  (w.silent_mute site).memberOf value name

theorem along_index (value key : Value) : Along [] ((w.traced site).index value key) :=
  (w.silent_mute site).index value key

/-- A task draws one random number at most. -/
theorem along_perform (task : Task) (arguments : List Value) :
    Along (answers site) ((w.traced site).perform task arguments) := by
  have quiet := (w.silent_mute site).perform task arguments
  cases task with
  | random =>
      have drawn := Along.noted site .draw w.random
      exact (drawn.map _).mono (by simp [answers])
  | _ => exact Along.mono quiet (List.nil_sublist _)

theorem along_apply (callee : Callable) (arguments : List Value) :
    Along (answers site) ((w.traced site).apply callee arguments) := by
  cases callee with
  | foreign serial =>
      exact (Along.noted site .call (w.call serial arguments)).mono (by simp [answers])
  | helper _ _ task => exact w.along_perform site task arguments

theorem along_callValue (value : Value) (arguments : List Value) :
    Along (answers site) ((w.traced site).callValue value arguments) := by
  cases value with
  | function callee => exact w.along_apply site callee arguments
  | _ => exact Along.answer _ _

theorem along_callMethod (value : Value) (name : String) (arguments : List Value) :
    Along (answers site) ((w.traced site).callMethod value name arguments) := by
  cases value with
  | host object =>
      simp only [World.callMethod, World.traced]
      cases found : w.method? object with
      | some method =>
          exact (Along.noted site .call (method name arguments)).mono (by simp [answers])
      | none =>
          exact (Along.quiet (w.member object name)).bind fun value =>
            w.along_callValue site value arguments
  | _ =>
      exact (w.along_memberOf site _ name).bind fun value =>
        w.along_callValue site value arguments

end World

/-! ### Evaluation -/

namespace Along

open Trigger.Expr

variable {scope : Scope s}

theorem callIn (site : Nat) (callee : Value) {effects : List (Nat × Effect)}
    {arguments : StateM (Traced s) (List Value)} (along : Along effects arguments) :
    Along (effects ++ answers site) ((scope.traced site).call callee arguments) := by
  cases callee with
  | function f => exact along.bind fun vs => scope.world.along_apply site f vs
  | _ => exact answer _ _

mutual

/-- Evaluation notes a part of what the expression may do, in the order of the source. -/
theorem eval : ∀ (n : Nat) (e : Expr), Along (e.effects n) (e.evalAt scope.traced n)
  | n, .literal value => answer _ _
  | n, .name word => noted n (.lookup word) (scope.resolve word)
  | n, .array items => (evalAll (n + 1) items).map _
  | n, .object entries => (evalEntries (n + 1) entries).map _
  | n, .call function arguments =>
      (noted n (.lookup function) (scope.resolve function)).bind fun callee =>
        callIn n callee (evalAll (n + 1) arguments)
  | n, .chain base links =>
      (eval n base).bind fun value => evalLinks (n + base.size) links value
  | n, .unary op operand => (eval (n + 1) operand).map _
  | n, .binary op left right => by
      refine (eval (n + 1) left).bind fun l => ?_
      split
      · exact answer _ l
      · exact (eval (n + (1 + left.size)) right).map _

theorem evalAll : ∀ (n : Nat) (es : List Expr),
    Along (effectsAll n es) (evalAllAt scope.traced n es)
  | _, [] => answer _ _
  | n, e :: es => (eval n e).bind fun _ => (evalAll (n + e.size) es).map _

theorem evalEntries : ∀ (n : Nat) (entries : List (String × Expr)),
    Along (effectsEntries n entries) (evalEntriesAt scope.traced n entries)
  | _, [] => answer _ _
  | n, (_, e) :: entries => (eval n e).bind fun _ => (evalEntries (n + e.size) entries).map _

theorem evalLinks : ∀ (n : Nat) (links : List Link) (value : Value),
    Along (effectsLinks n links) (evalLinksAt scope.traced n value links)
  | n, [], value => answer _ _
  | n, link :: links, value => by
      simp only [evalLinksAt]
      split
      -- The chain stops, and the links behind do nothing.
      · exact answer _ _
      · exact (evalLink n link value).bind fun next => evalLinks (n + sizeLink link) links next

theorem evalLink : ∀ (n : Nat) (link : Link) (value : Value),
    Along (effectsLink n link) (evalLinkAt scope.traced n value link)
  | n, .member word _, value => scope.world.along_memberOf n value word
  | n, .method word arguments _, value => by
      have all := evalAll (n + 1) arguments
      cases value with
      | host receiver =>
          exact all.bind fun vs => scope.world.along_callMethod n (.host receiver) word vs
      | _ =>
          exact (scope.world.along_memberOf n _ word).bind fun callee => callIn n callee all
  | n, .index key, value => by
      rw [effectsLink, ← List.append_nil (key.effects (n + 1))]
      exact (eval (n + 1) key).bind fun k => scope.world.along_index n value k

end

end Along

/-! ## What is produced -/

theorem Live.places_demand (place : Nat) (produce : StateM s Bindings) (l : Live s) :
    (demand place produce l).2.places =
      if place ∈ l.places then l.places else place :: l.places := by
  cases known : l.at? place with
  | some bindings =>
      have mem : place ∈ l.places := mem_places.mpr (by simp [known])
      rw [demand_known known, if_pos mem]
  | none =>
      have new : place ∉ l.places := fun mem => by simpa [known] using mem_places.mp mem
      rw [demand_new known, if_neg new]
      rfl

namespace Context

/-- The places whose groups have been produced, the latest first, when one more name has been looked
up: the one of its owner is added if this is lazy and has not been produced. -/
def reach (c : Context s) (places : List Nat) (name : String) : List Nat :=
  match c.owner? name with
  | none => places
  | some (place, g) =>
    if g.isLazy then if place ∈ places then places else place :: places else places

theorem places_resolve (c : Context s) (name : String) (l : Live s) :
    (c.resolve name l).2.places = c.reach l.places name := by
  show (c.resolve? name l).2.places = _
  unfold resolve? reach
  cases c.owner? name with
  | none => rfl
  | some found =>
      obtain ⟨place, g⟩ := found
      cases kind : g.kind with
      | eager bindings =>
          simp only [kind, Group.isLazy]
          rfl
      | lazy names produce =>
          simp only [kind, Group.isLazy, if_true]
          exact l.places_demand place produce

end Context

/-- The names that have been looked up. -/
def Traced.names (t : Traced s) : List String := (lookups t.trace).map (·.2)

/-- Whether a name is looked up in the context, where the subject may be bound to a name. -/
def asksContext (subject : Option (String × Value)) (name : String) : Bool :=
  match subject with
  | none => true
  | some (word, _) => decide (name ≠ word)

/-- The scope of a context, where the subject may be bound to a name. -/
def Context.scopeOf (c : Context s) (w : World s) : Option (String × Value) → Scope (Live s)
  | none => c.scope w
  | some (word, subject) => (c.scope w).bind word subject

section
variable (c : Context s) (subject : Option (String × Value)) (places : List Nat)

/-- The places whose groups have been produced when the names have been looked up. -/
def Context.reachAll (names : List String) : List Nat :=
  (names.filter (asksContext subject)).foldl c.reach places

/-- The action on a traced state keeps it so that what has been produced is what the names that have
been looked up have reached. -/
def KeepsReaching (α : Type) (x : StateM (Traced (Live s)) α) (_ : StateM (Live s) α) : Prop :=
  ∀ t : Traced (Live s), t.state.places = c.reachAll subject places t.names →
    (x t).2.state.places = c.reachAll subject places (x t).2.names

variable {c subject places}

theorem keepsReaching_noted {α : Type} {site : Nat} {effect : Effect} {x : StateM (Live s) α}
    (step : ∀ l, (x l).2.places =
      c.reachAll subject l.places ((lookups [(site, effect)]).map (·.2))) :
    KeepsReaching c subject places α (noted site effect x) x := by
  intro t reached
  show (x t.state).2.places =
    c.reachAll subject places ((lookups (t.trace ++ [(site, effect)])).map (·.2))
  rw [step t.state, reached]
  simp only [Context.reachAll, lookups_append, List.map_append, List.filter_append,
    List.foldl_append, Traced.names]

theorem World.keepsReaching (w : World s) (site : Nat) :
    World.Related (KeepsReaching c subject places) (w.inside.traced site) w.inside where
  relation :=
    ⟨fun _ _ reached => reached, fun first second t reached => second _ _ (first t reached)⟩
  call _ _ := keepsReaching_noted fun _ => rfl
  member _ _ _ reached := reached
  methods _ := Option.isSome_map
  method object method method' found found' name arguments := by
    obtain ⟨_, answers, rfl⟩ := Option.map_eq_some_iff.mp found'
    have found : ((w.method? object).map _).map _ = some method := found
    rw [answers, Option.map_some, Option.map_some] at found
    cases found
    exact keepsReaching_noted fun _ => rfl
  random := keepsReaching_noted fun _ => rfl

theorem Context.reachAll_singleton (word : String) :
    c.reachAll subject places [word] =
      if asksContext subject word then c.reach places word else places := by
  cases asks : asksContext subject word <;> simp [reachAll, asks]

/-- The context is only asked for names that are not the one of the subject. -/
theorem Context.places_resolve_scopeOf (w : World s) (word : String) (l : Live s) :
    ((c.scopeOf w subject).resolve word l).2.places = c.reachAll subject l.places [word] := by
  rw [reachAll_singleton]
  cases subject with
  | none => exact c.places_resolve word l
  | some pair =>
      obtain ⟨name, value⟩ := pair
      simp only [scopeOf, Scope.bind, asksContext, decide_eq_true_eq, ite_not]
      split
      · rfl
      · exact c.places_resolve word l

theorem Context.keepsReaching (w : World s) (site : Nat) :
    Scope.Related (KeepsReaching c subject places) ((c.scopeOf w subject).traced site)
      (c.scopeOf w subject) where
  world := by cases subject <;> exact w.keepsReaching site
  resolve word := keepsReaching_noted fun l => Context.places_resolve_scopeOf w word l

end

/-- Evaluation of an expression, observed through the scope, has the same value and the same state.
What it does is a part of what the expression may do, in the order of the source, and nothing is
done twice.  So the names that are looked up are a part of the names of the expression, each at its
own site and at most once, and each call draws at most one random number.  In a context the lazy
groups are produced in the order in which the names that have been looked up first reach them. -/
theorem Expr.evaluated_left_to_right (e : Expr) :
    (∀ (scope : Scope s) (state : s),
      let run := e.evalAt scope.traced 0 ⟨state, []⟩
      (run.1, run.2.state) = e.eval scope state ∧
        run.2.trace.Sublist (e.effects 0) ∧ run.2.trace.Nodup ∧
        (lookups run.2.trace).Sublist (lookups (e.effects 0))) ∧
    ((lookups (e.effects 0)).map (·.2) = e.names ∧
      (lookups (e.effects 0)).Pairwise (·.1 < ·.1)) ∧
    ∀ (c : Context s) (w : World s) (subject : Option (String × Value)) (l : Live s),
      let run := e.evalAt (c.scopeOf w subject).traced 0 ⟨l, []⟩
      run.2.state.places = c.reachAll subject l.places run.2.names := by
  have sited := sited_effects 0 e
  refine ⟨?_, ⟨sited.names, sited.ordered⟩, ?_⟩
  · intro scope state run
    have same := Scope.Related.evalAt scope.forgets_traced 0 e ⟨state, []⟩
    have along : Along (e.effects 0) (e.evalAt scope.traced 0) := Along.eval 0 e
    obtain ⟨done, eq, sub⟩ := along ⟨state, []⟩
    rw [List.nil_append] at eq
    subst eq
    exact ⟨same, sub, sub.nodup sited.nodup, sub.filterMap _⟩
  · intro c w subject l
    exact Scope.Related.evalAt (fun site => Context.keepsReaching w site) 0 e ⟨l, []⟩ rfl

end Trigger
