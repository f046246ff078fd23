import Trigger.Proofs.World.Related

/-!
# Evaluation with sites

The nodes and links of an expression are numbered from left to right, each before what is inside it,
by as many numbers as `Expr.size` counts.  The number of a node or link is its site.

`Expr.evalAt` is evaluation with a scope of its own at each site.  So what is done in a scope is
known to be done at its site.  Where the scopes at all sites are related to one, it is related to
`Expr.eval` in that scope (`Scope.Related.evalAt`).

`Expr.effects` is what an expression may do at its sites, each thing once, in the order of the
source: a look at a name, and behind the arguments of a call the answer to it.
-/

namespace Trigger

/-- What evaluation does at a site. -/
inductive Effect where
  /-- It looks up a name. -/
  | lookup (name : String)
  /-- A function of the world or an object of the host answers a call. -/
  | call
  /-- A random number is drawn. -/
  | draw
deriving DecidableEq

/-- The names that are looked up by effects, with their sites. -/
def lookups (effects : List (Nat × Effect)) : List (Nat × String) :=
  effects.filterMap fun
    | (site, .lookup name) => some (site, name)
    | _ => none

/-- The ways in which a call may be answered. -/
def answers (site : Nat) : List (Nat × Effect) := [(site, .call), (site, .draw)]

namespace Expr

variable {s : Type}

mutual

/-- Evaluation where the sites are numbered from the given number on, and each has its own scope. -/
def evalAt (scopes : Nat → Scope s) : Nat → Expr → StateM s Value
  | _, literal value => pure value.value
  | n, name word => (scopes n).resolve word
  | n, array items => do return .array (← evalAllAt scopes (n + 1) items)
  | n, object entries => do return .ofEntries (← evalEntriesAt scopes (n + 1) entries)
  | n, call function arguments => do
    (scopes n).call (← (scopes n).resolve function) (evalAllAt scopes (n + 1) arguments)
  | n, chain base links => do
    evalLinksAt scopes (n + base.size) (← evalAt scopes n base) links
  | n, unary op operand => do return op.apply (← evalAt scopes (n + 1) operand)
  | n, binary op left right => do
    let l ← evalAt scopes (n + 1) left
    if op.decidedBy l then pure l
    else return op.apply l (← evalAt scopes (n + (1 + left.size)) right)
termination_by structural _ x => x

def evalAllAt (scopes : Nat → Scope s) : Nat → List Expr → StateM s (List Value)
  | _, [] => pure []
  | n, e :: es => do
    let v ← evalAt scopes n e
    return v :: (← evalAllAt scopes (n + e.size) es)
termination_by structural _ x => x

/-- The values of entries, under their keys. -/
def evalEntriesAt (scopes : Nat → Scope s) :
    Nat → List (String × Expr) → StateM s (List (String × Value))
  | _, [] => pure []
  | n, (key, e) :: entries => do
    let v ← evalAt scopes n e
    return (key, v) :: (← evalEntriesAt scopes (n + e.size) entries)
termination_by structural _ x => x

/-- The value at the end of links. -/
def evalLinksAt (scopes : Nat → Scope s) : Nat → Value → List Link → StateM s Value
  | _, value, [] => pure value
  | n, value, link :: links =>
    if link.isOptional && value.isNullish then pure .absent
    else do evalLinksAt scopes (n + sizeLink link) (← evalLinkAt scopes n value link) links
termination_by structural _ _ x => x

def evalLinkAt (scopes : Nat → Scope s) : Nat → Value → Link → StateM s Value
  | n, value, .member word _ => (scopes n).world.memberOf value word
  | n, value, .method word arguments _ =>
    match value with
    | .host receiver => do
      (scopes n).world.callMethod (.host receiver) word (← evalAllAt scopes (n + 1) arguments)
    | other => do
      (scopes n).call (← (scopes n).world.memberOf other word) (evalAllAt scopes (n + 1) arguments)
  | n, value, .index key => do
    (scopes n).world.index value (← evalAt scopes (n + 1) key)
termination_by structural _ _ x => x

end

mutual

/-- What evaluation may do, where the sites are numbered from the given number on. -/
def effects : Nat → Expr → List (Nat × Effect)
  | _, literal _ => []
  | n, name word => [(n, .lookup word)]
  | n, array items => effectsAll (n + 1) items
  | n, object entries => effectsEntries (n + 1) entries
  | n, call function arguments =>
    (n, .lookup function) :: (effectsAll (n + 1) arguments ++ answers n)
  | n, chain base links => effects n base ++ effectsLinks (n + base.size) links
  | n, unary _ operand => effects (n + 1) operand
  | n, binary _ left right => effects (n + 1) left ++ effects (n + (1 + left.size)) right
termination_by structural _ x => x

def effectsAll : Nat → List Expr → List (Nat × Effect)
  | _, [] => []
  | n, e :: es => effects n e ++ effectsAll (n + e.size) es
termination_by structural _ x => x

/-- What evaluation may do for the values under keys. -/
def effectsEntries : Nat → List (String × Expr) → List (Nat × Effect)
  | _, [] => []
  | n, (_, e) :: entries => effects n e ++ effectsEntries (n + e.size) entries
termination_by structural _ x => x

def effectsLinks : Nat → List Link → List (Nat × Effect)
  | _, [] => []
  | n, link :: links => effectsLink n link ++ effectsLinks (n + sizeLink link) links
termination_by structural _ x => x

def effectsLink : Nat → Link → List (Nat × Effect)
  | _, .member _ _ => []
  | n, .method _ arguments _ => effectsAll (n + 1) arguments ++ answers n
  | n, .index key => effects (n + 1) key
termination_by structural _ x => x

end

end Expr

/-! ## Evaluation in one scope -/

section
variable {s t : Type}

/-- Two scopes have related worlds, and names resolve by related actions. -/
structure Scope.Related (R : ∀ α : Type, StateM s α → StateM t α → Prop) (scope : Scope s)
    (scope' : Scope t) : Prop where
  world : World.Related R scope.world scope'.world
  resolve : ∀ word, R _ (scope.resolve word) (scope'.resolve word)

namespace Scope.Related

open Trigger.Expr

variable {R : ∀ α : Type, StateM s α → StateM t α → Prop} {scopes : Nat → Scope s}
  {scope : Scope t}

mutual

/-- Evaluation with sites is related to evaluation in one scope, if the scopes of the sites are
related to this one. -/
theorem evalAt (related : ∀ n, Related R (scopes n) scope) :
    ∀ (n : Nat) (e : Expr), R _ (e.evalAt scopes n) (e.eval scope)
  | n, .literal value => (related n).world.relation.answer _
  | n, .name word => (related n).resolve word
  | n, .array items => (related n).world.relation.map (evalAllAt related (n + 1) items) _
  | n, .object entries => (related n).world.relation.map (evalEntriesAt related (n + 1) entries) _
  | n, .call function arguments =>
      (related n).world.relation.bind ((related n).resolve function) fun callee =>
        (related n).world.callIn callee (evalAllAt related (n + 1) arguments)
  | n, .chain base links =>
      (related n).world.relation.bind (evalAt related n base) fun value =>
        evalLinksAt related (n + base.size) links value
  | n, .unary op operand => (related n).world.relation.map (evalAt related (n + 1) operand) _
  | n, .binary op left right => by
      refine (related n).world.relation.bind (evalAt related (n + 1) left) fun l => ?_
      split
      · exact (related n).world.relation.answer l
      · exact (related n).world.relation.map (evalAt related (n + (1 + left.size)) right) _

theorem evalAllAt (related : ∀ n, Related R (scopes n) scope) :
    ∀ (n : Nat) (es : List Expr), R _ (Expr.evalAllAt scopes n es) (evalAll scope es)
  | n, [] => (related n).world.relation.answer []
  | n, e :: es =>
      (related n).world.relation.bind (evalAt related n e) fun _ =>
        (related n).world.relation.map (evalAllAt related (n + e.size) es) _

theorem evalEntriesAt (related : ∀ n, Related R (scopes n) scope) :
    ∀ (n : Nat) (entries : List (String × Expr)),
      R _ (Expr.evalEntriesAt scopes n entries) (evalEntries scope entries)
  | n, [] => (related n).world.relation.answer []
  | n, (_, e) :: entries =>
      (related n).world.relation.bind (evalAt related n e) fun _ =>
        (related n).world.relation.map (evalEntriesAt related (n + e.size) entries) _

theorem evalLinksAt (related : ∀ n, Related R (scopes n) scope) :
    ∀ (n : Nat) (links : List Link) (value : Value),
      R _ (Expr.evalLinksAt scopes n value links) (evalLinks scope value links)
  | n, [], value => (related n).world.relation.answer value
  | n, link :: links, value => by
      simp only [Expr.evalLinksAt, evalLinks]
      split
      · exact (related n).world.relation.answer Value.absent
      · exact (related n).world.relation.bind (evalLinkAt related n link value) fun next =>
          evalLinksAt related (n + sizeLink link) links next

theorem evalLinkAt (related : ∀ n, Related R (scopes n) scope) :
    ∀ (n : Nat) (link : Link) (value : Value),
      R _ (Expr.evalLinkAt scopes n value link) (evalLink scope value link)
  | n, .member word _, value => (related n).world.memberOf value word
  | n, .method word arguments _, value => by
      have all := evalAllAt related (n + 1) arguments
      cases value with
      | host receiver =>
          exact (related n).world.relation.bind all fun vs =>
            (related n).world.callMethod (.host receiver) word vs
      | _ =>
          exact (related n).world.relation.bind ((related n).world.memberOf _ word) fun callee =>
            (related n).world.callIn callee all
  | n, .index key, value =>
      (related n).world.relation.bind (evalAt related (n + 1) key) fun k =>
        (related n).world.index value k

end

end Scope.Related

end

/-! ## The order of the sites -/

/-- Effects that may happen at `width` sites from `n` on: nothing is in the list twice, and the
names that are looked up are those given, at sites from left to right. -/
structure Sited (n width : Nat) (effects : List (Nat × Effect)) (names : List String) : Prop where
  within : ∀ effect ∈ effects, n ≤ effect.1 ∧ effect.1 < n + width
  nodup : effects.Nodup
  names : (lookups effects).map (·.2) = names
  ordered : (lookups effects).Pairwise (·.1 < ·.1)

@[simp] theorem lookups_append (effects more : List (Nat × Effect)) :
    lookups (effects ++ more) = lookups effects ++ lookups more := List.filterMap_append

theorem mem_lookups {effects : List (Nat × Effect)} {site : Nat} {name : String} :
    (site, name) ∈ lookups effects ↔ (site, .lookup name) ∈ effects := by
  simp only [lookups, List.mem_filterMap]
  constructor
  · rintro ⟨⟨site', effect⟩, mem, found⟩
    cases effect with
    | lookup name' =>
        cases found
        exact mem
    | _ => cases found
  · exact fun mem => ⟨_, mem, rfl⟩

@[simp] theorem lookups_answers (site : Nat) : lookups (answers site) = [] := rfl

theorem site_of_mem_answers {site : Nat} {effect : Nat × Effect} (mem : effect ∈ answers site) :
    effect.1 = site := by
  simp only [answers, List.mem_cons, List.not_mem_nil, or_false] at mem
  rcases mem with rfl | rfl <;> rfl

namespace Sited

variable {n width width' : Nat} {effects more : List (Nat × Effect)} {names names' : List String}

theorem nil (n width : Nat) : Sited n width [] [] := ⟨nofun, .nil, rfl, .nil⟩

theorem append (first : Sited n width effects names)
    (second : Sited (n + width) width' more names') :
    Sited n (width + width') (effects ++ more) (names ++ names') where
  within effect mem := by
    rcases List.mem_append.mp mem with mem | mem
    · have := first.within effect mem
      omega
    · have := second.within effect mem
      omega
  nodup := by
    refine List.nodup_append.mpr ⟨first.nodup, second.nodup, ?_⟩
    rintro effect mem _ mem' rfl
    have := first.within effect mem
    have := second.within effect mem'
    omega
  names := by rw [lookups_append, List.map_append, first.names, second.names]
  ordered := by
    rw [lookups_append]
    refine List.pairwise_append.mpr ⟨first.ordered, second.ordered, ?_⟩
    intro effect mem effect' mem'
    have := first.within _ (mem_lookups.mp mem)
    have := second.within _ (mem_lookups.mp mem')
    omega

/-- What is done inside a node that does nothing itself. -/
theorem inside (sited : Sited (n + 1) width effects names) : Sited n (1 + width) effects names :=
  (nil n 1).append sited

/-- A look at a name in front of what is done inside. -/
theorem lookup (name : String) (sited : Sited (n + 1) width effects names) :
    Sited n (1 + width) ((n, .lookup name) :: effects) (name :: names) := by
  have first : Sited n 1 [(n, .lookup name)] [name] :=
    ⟨by simp, List.pairwise_singleton _ _, rfl, List.pairwise_singleton _ _⟩
  exact first.append sited

/-- The answer to a call behind what is done inside. -/
theorem answered (sited : Sited n (1 + width) effects names)
    (apart : ∀ effect ∈ effects, effect ∉ answers n) :
    Sited n (1 + width) (effects ++ answers n) names where
  within effect mem := by
    rcases List.mem_append.mp mem with mem | mem
    · exact sited.within effect mem
    · have := site_of_mem_answers mem
      omega
  nodup := by
    refine List.nodup_append.mpr ⟨sited.nodup, by simp [answers], ?_⟩
    rintro effect mem _ mem' rfl
    exact apart effect mem mem'
  names := by simpa using sited.names
  ordered := by simpa using sited.ordered

/-- What is done at later sites is no answer. -/
theorem not_answers (sited : Sited (n + 1) width effects names) :
    ∀ effect ∈ effects, effect ∉ answers n := by
  intro effect mem answer
  have := sited.within effect mem
  have := site_of_mem_answers answer
  omega

end Sited

namespace Expr

mutual

theorem sited_effects : ∀ (n : Nat) (e : Expr), Sited n e.size (e.effects n) e.names
  | n, literal _ => .nil n 1
  | n, name word => .lookup word (.nil (n + 1) 0)
  | n, array items => (sited_effectsAll (n + 1) items).inside
  | n, object entries => (sited_effectsEntries (n + 1) entries).inside
  | n, call function arguments => by
      have inside := sited_effectsAll (n + 1) arguments
      refine (inside.lookup function).answered ?_
      intro effect mem
      rcases List.mem_cons.mp mem with rfl | mem
      · simp [answers]
      · exact inside.not_answers effect mem
  | n, chain base links => by
      rw [names_chain]
      exact (sited_effects n base).append (sited_effectsLinks (n + base.size) links)
  | n, unary _ operand => (sited_effects (n + 1) operand).inside
  | n, binary _ left right => by
      rw [names_binary]
      exact (sited_effects (n + 1) left).inside.append (sited_effects (n + (1 + left.size)) right)

theorem sited_effectsAll : ∀ (n : Nat) (es : List Expr),
    Sited n (sizeAll es) (effectsAll n es) (namesIn (nodesAll es))
  | n, [] => .nil n 0
  | n, e :: es => by
      rw [namesIn_nodesAll_cons]
      exact (sited_effects n e).append (sited_effectsAll (n + e.size) es)

theorem sited_effectsEntries : ∀ (n : Nat) (entries : List (String × Expr)),
    Sited n (sizeEntries entries) (effectsEntries n entries) (namesIn (nodesEntries entries))
  | n, [] => .nil n 0
  | n, (_, e) :: entries => by
      rw [namesIn_nodesEntries_cons]
      exact (sited_effects n e).append (sited_effectsEntries (n + e.size) entries)

theorem sited_effectsLinks : ∀ (n : Nat) (links : List Link),
    Sited n (sizeLinks links) (effectsLinks n links) (namesIn (nodesLinks links))
  | n, [] => .nil n 0
  | n, link :: links => by
      rw [namesIn_nodesLinks_cons]
      exact (sited_effectsLink n link).append (sited_effectsLinks (n + sizeLink link) links)

theorem sited_effectsLink : ∀ (n : Nat) (link : Link),
    Sited n (sizeLink link) (effectsLink n link) (namesIn (nodesLink link))
  | n, .member _ _ => .nil n 1
  | n, .method _ arguments _ => by
      have inside := sited_effectsAll (n + 1) arguments
      exact inside.inside.answered inside.not_answers
  | n, .index key => (sited_effects (n + 1) key).inside

end

end Expr

end Trigger
