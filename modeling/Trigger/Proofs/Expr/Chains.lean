import Trigger.Proofs.World.Journal

/-!
# Chains behind chains

A chain may have a chain as its base, as `(a?.b).c` has.  Its canonical text is that of the flat
chain `a?.b.c`, and both have the same value.

They may differ in what they do.  An optional link that meets null or absent stops the chain that it
belongs to: the flat chain is over then, and of the nested one only the inner chain.  The links of
the outer chain go on from absent.  There they lead to nothing but absent (`absent_evalLinks`),
though the key of an index is still evaluated.  So what the flat chain does comes first in what the
nested chain does, and without such a stop it is all.
-/

namespace Trigger.Expr

variable {s : Type}

/-- The value at the end of links, if no optional link meets null or absent. -/
def evalLinks? (scope : Scope s) (value : Value) : List Link → StateM s (Option Value)
  | [] => pure (some value)
  | link :: links =>
    if link.isOptional && value.isNullish then pure none
    else do evalLinks? scope (← evalLink scope value link) links

/-- The value at the end of the links behind a base, if no optional link meets null or absent. -/
def evalChain? (scope : Scope s) (base : Expr) (links : List Link) : StateM s (Option Value) := do
  evalLinks? scope (← base.eval scope) links

variable (scope : Scope s)

/-- Links behind links are reached unless an optional link stops. -/
theorem evalLinks_append (value : Value) (links more : List Link) (state : s) :
    evalLinks scope value (links ++ more) state =
      match evalLinks? scope value links state with
      | (some reached, behind) => evalLinks scope reached more behind
      | (none, behind) => (.absent, behind) := by
  induction links generalizing value state with
  | nil => rfl
  | cons link links ih =>
      simp only [List.cons_append, evalLinks, evalLinks?]
      split
      · rfl
      · exact ih _ _

/-- Links end where they are reached, and at absent where an optional link stops. -/
theorem evalLinks_eq (value : Value) (links : List Link) (state : s) :
    evalLinks scope value links state =
      ((evalLinks? scope value links state).1.getD .absent,
        (evalLinks? scope value links state).2) := by
  rw [← List.append_nil links, evalLinks_append, List.append_nil]
  split <;> rename_i eq <;> rw [eq] <;> rfl

/-- A link of absent is absent. -/
theorem absent_evalLink (link : Link) (state : s) :
    (evalLink scope .absent link state).1 = .absent := by
  cases link <;> rfl

/-- All links of absent are. -/
theorem absent_evalLinks (links : List Link) (state : s) :
    (evalLinks scope .absent links state).1 = .absent := by
  induction links generalizing state with
  | nil => rfl
  | cons link links ih =>
      simp only [evalLinks]
      split
      · rfl
      · show (evalLinks scope (evalLink scope .absent link state).1 links _).1 = _
        rw [absent_evalLink]
        exact ih _

variable (base : Expr) (links more : List Link)

/-- The flat chain goes on where the base with its links has led, and ends where it stops. -/
theorem eval_flat (state : s) :
    (chain base (links ++ more)).eval scope state =
      match evalChain? scope base links state with
      | (some reached, behind) => evalLinks scope reached more behind
      | (none, behind) => (.absent, behind) :=
  evalLinks_append scope _ links more _

/-- The nested chain goes on in any case, from absent where the inner one stops. -/
theorem eval_nested (state : s) :
    (chain (chain base links) more).eval scope state =
      evalLinks scope ((evalChain? scope base links state).1.getD .absent) more
        (evalChain? scope base links state).2 := by
  have inner : (chain base links).eval scope state = _ :=
    evalLinks_eq scope (base.eval scope state).1 links (base.eval scope state).2
  show evalLinks scope ((chain base links).eval scope state).1 more
    ((chain base links).eval scope state).2 = _
  rw [inner]
  rfl

/-- Both chains have the same value. -/
theorem value_nested (state : s) :
    ((chain (chain base links) more).eval scope state).1 =
      ((chain base (links ++ more)).eval scope state).1 := by
  rw [eval_nested, eval_flat]
  split <;> rename_i eq <;> rw [eq]
  · rfl
  · exact absent_evalLinks scope more _

/-- Where no optional link stops, both chains are the same action. -/
theorem nested_of_reached {state : s} {value : Value}
    (reached : (evalChain? scope base links state).1 = some value) :
    (chain (chain base links) more).eval scope state =
      (chain base (links ++ more)).eval scope state := by
  rw [eval_nested, eval_flat]
  split <;> rename_i eq <;> rw [eq] at reached ⊢
  · rfl
  · cases reached

/-- Where an optional link stops, the nested chain goes on behind the flat one. -/
theorem nested_of_stopped {state : s} (stopped : (evalChain? scope base links state).1 = none) :
    (chain (chain base links) more).eval scope state =
      evalLinks scope .absent more ((chain base (links ++ more)).eval scope state).2 := by
  rw [eval_nested, eval_flat]
  split <;> rename_i eq <;> rw [eq] at stopped ⊢
  · cases stopped
  · rfl

/-! ## With a journal -/

section
variable {t : Type} {R : ∀ α : Type, StateM s α → StateM t α → Prop} {scope' : Scope t}

/-- Related scopes reach related ends. -/
theorem related_evalLinks? (related : Scope.Related R scope scope') (links : List Link)
    (value : Value) : R _ (evalLinks? scope value links) (evalLinks? scope' value links) := by
  induction links generalizing value with
  | nil => exact related.world.relation.answer _
  | cons link links ih =>
      simp only [evalLinks?]
      split
      · exact related.world.relation.answer _
      · refine related.world.relation.bind ?_ ih
        exact related.world.evalLink link (fun word _ => related.resolve word) value

theorem related_evalChain? (related : Scope.Related R scope scope') :
    R _ (evalChain? scope base links) (evalChain? scope' base links) :=
  related.world.relation.bind (related.world.eval base fun word _ => related.resolve word)
    fun value => related_evalLinks? scope related links value

end

variable {s : Type} (scope : Scope (Live s)) (base : Expr) (links more : List Link)

/-- What the flat chain does comes first in what the nested one does. -/
theorem journal_flat_prefix (t : Journaled s) :
    ((chain base (links ++ more)).eval scope.journaled t).2.journal <+:
      ((chain (chain base links) more).eval scope.journaled t).2.journal := by
  cases reached : (evalChain? scope.journaled base links t).1 with
  | none =>
      rw [nested_of_stopped _ _ _ _ reached]
      exact Journaled.extends_evalLinks scope .absent more _
  | some value =>
      have same := nested_of_reached _ _ _ more reached
      exact same ▸ List.prefix_rfl

/-- Links behind a chain have the same value as the links of both in one chain.  Either way the
value and the live state are those of evaluation without a journal.  What the flat chain does to its
surroundings comes first in what the nested one does, in the same order.  The two do the same,
unless an optional link of the inner chain meets null or absent; then the nested chain goes on from
absent, where the flat one is over. -/
theorem nested_chain_agrees_with_flat (l : Live s) :
    let nested := (chain (chain base links) more).eval scope.journaled ⟨l, []⟩
    let flat := (chain base (links ++ more)).eval scope.journaled ⟨l, []⟩
    (nested.1, nested.2.live) = (chain (chain base links) more).eval scope l ∧
    (flat.1, flat.2.live) = (chain base (links ++ more)).eval scope l ∧
    nested.1 = flat.1 ∧
    flat.2.journal <+: nested.2.journal ∧
    nested = (if (evalChain? scope base links l).1.isSome then flat
      else evalLinks scope.journaled .absent more flat.2) := by
  intro nested flat
  have through := scope.through_journaled
  have same : (evalChain? scope.journaled base links ⟨l, []⟩).1 =
      (evalChain? scope base links l).1 :=
    congrArg Prod.fst (related_evalChain? scope.journaled base links through ⟨l, []⟩)
  refine ⟨?_, ?_, ?_, ?_, ?_⟩
  · exact through.world.eval _ (fun word _ => through.resolve word) ⟨l, []⟩
  · exact through.world.eval _ (fun word _ => through.resolve word) ⟨l, []⟩
  · exact value_nested scope.journaled base links more _
  · exact journal_flat_prefix scope base links more _
  · rw [← same]
    cases reached : (evalChain? scope.journaled base links ⟨l, []⟩).1 with
    | some value => exact nested_of_reached scope.journaled base links more reached
    | none => exact nested_of_stopped scope.journaled base links more reached

/-- An object under `a`, and a function `f` that the world answers. -/
def callable : Scope (Live Unit) :=
  ((Context.empty.addValue "a" (.ofEntries [("b", .null)])).addValue "f"
    (.function (.foreign 0))).scope
      { call := fun _ _ => pure .absent
        member := fun _ _ => pure .absent
        method? := fun _ => none
        random := pure 0 }

/-- In `(a.b?.c)[f()]` the optional link stops at null, and `f` is called for the index of
absent. -/
example :
    let stops : List Link := [.member "b" false, .member "c" true]
    let key : List Link := [.index (.call "f" [])]
    ((chain (.name "a") (stops ++ key)).eval callable.journaled ⟨.fresh (), []⟩).2.journal = [] ∧
      ((chain (chain (.name "a") stops) key).eval callable.journaled ⟨.fresh (), []⟩).2.journal =
        [.call 0 []] :=
  ⟨rfl, rfl⟩

end Trigger.Expr
