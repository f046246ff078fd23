import Trigger.Session

/-!
# What the steps of a session do to its cache

A step compiles a text, parses one or two, forgets something or leaves the cache alone, whatever
setting it is in (`Step.onCache`).  So what compiling and parsing keep is kept by every step that
does not forget (`Step.onCache_induction`), and a run changes the cache as its steps do, one after
another (`Session.run_concat`).
-/

namespace Trigger

variable {s : Type}

/-! ## Compiling and parsing -/

namespace Registry

variable {r : Registry} {text : String}

theorem parse_known {parsed : Parsed} (known : r.known.find? text = some parsed) :
    r.parse text = (parsed, r) := by
  simp only [Registry.parse, known]

/-- The parse that is made where there is none. -/
def fresh (r : Registry) (text : String) : Parsed := ⟨r.minted, Expr.ofText text.toList⟩

theorem parse_new (new : r.known.find? text = none) :
    r.parse text = (r.fresh text,
      { r with
        known := if (r.fresh text).isExpr || r.keepsFailures then
          r.known.insert text (r.fresh text) else r.known
        minted := r.minted + 1 }) := by
  unfold Registry.parse
  simp only [new]
  cases keeps : (r.fresh text).isExpr || r.keepsFailures with
  | true => exact if_pos keeps
  | false => exact if_neg (Bool.eq_false_iff.mp keeps)

end Registry

namespace Cache

variable {c : Cache} {text : String}

theorem compile_known {p : Predicate} (known : c.predicates.find? text = some p) :
    c.compile text = (p, { c with stats := c.stats.hit }) := by
  simp only [Cache.compile, known]

/-- The predicate that is made where there is none. -/
def fresh (c : Cache) (text : String) : Predicate := ⟨c.minted, (c.plan text).1⟩

theorem compile_new (new : c.predicates.find? text = none) :
    c.compile text = (c.fresh text,
      { c with
        predicates := c.predicates.insert text (c.fresh text)
        registry := (c.plan text).2
        stats := c.stats.miss (c.plan text).1.tier
        minted := c.minted + 1 }) := by
  simp only [Cache.compile, new, fresh]

end Cache

/-! ## Steps -/

namespace Step

/-- The cache behind the step. -/
def onCache (c : Cache) : Step s → Cache
  | .compile text _ | .evaluate text => (c.compile text).2
  | .evaluateText text | .evaluateAlone text | .parse text => (c.parse text).2
  | .sameTree a b => ((c.parse a).2.parse b).2
  | .clear => c.clear
  | .clearRegistry => c.clearRegistry
  | _ => c

/-- The text whose predicate the step asks for. -/
def compiled? : Step s → Option String
  | .compile text _ | .evaluate text => some text
  | _ => none

/-- Whether the step forgets predicates. -/
def clears : Step s → Bool
  | .clear => true
  | _ => false

/-- Whether the step forgets parses. -/
def clearsRegistry : Step s → Bool
  | .clear | .clearRegistry => true
  | _ => false

/-- The name under which the step keeps a predicate. -/
def keeps? : Step s → Option String
  | .compile _ keep => keep
  | _ => none

/-- What compiling and parsing keep is kept by a step, unless it forgets. -/
theorem onCache_induction {P : Cache → Prop} (compile : ∀ {c} text, P c → P (c.compile text).2)
    (parse : ∀ {c} text, P c → P (c.parse text).2) {c : Cache} (holds : P c) (step : Step s)
    (clear : step.clears = true → P c.clear)
    (clearRegistry : step.clearsRegistry = true → P c.clearRegistry) : P (step.onCache c) := by
  cases step with
  | compile text _ | evaluate text => exact compile text holds
  | evaluateText text | evaluateAlone text | parse text => exact parse text holds
  | sameTree a b => exact parse b (parse a holds)
  | clear => exact clear rfl
  | clearRegistry => exact clearRegistry rfl
  | _ => exact holds

end Step

/-! ## Runs -/

/-- Where a list with one more element behind it is split at an element, that is the last one or it
is in the list. -/
theorem split_concat {α : Type} {list before behind : List α} {a b : α}
    (split : list ++ [a] = before ++ b :: behind) :
    (before = list ∧ b = a ∧ behind = []) ∨
      ∃ more, list = before ++ b :: more ∧ behind = more ++ [a] := by
  rcases List.eq_nil_or_concat behind with rfl | ⟨more, c, rfl⟩
  · obtain ⟨rfl, same⟩ := List.append_inj' split rfl
    cases same
    exact .inl ⟨rfl, rfl, rfl⟩
  · rw [List.concat_eq_append, ← List.cons_append, ← List.append_assoc] at split
    obtain ⟨same, last⟩ := List.append_inj' split rfl
    cases last
    exact .inr ⟨more, same, List.concat_eq_append⟩

namespace Session

theorem cache_step_eq (session : Session s) (step : Step s) :
    (session.step step).2.cache = step.onCache session.cache := by
  cases step with
  | call _ | same _ _ | evaluateAlone _ | parse _ =>
      simp only [Session.step]
      split <;> rfl
  | _ => rfl

theorem kept_step (session : Session s) {step : Step s} {name : String}
    (other : step.keeps? ≠ some name) :
    (session.step step).2.kept.lookup name = session.kept.lookup name := by
  cases step with
  | compile text keep =>
      cases keep with
      | none => rfl
      | some kept =>
          have apart : (name == kept) = false := by
            refine beq_eq_false_iff_ne.mpr ?_
            rintro rfl
            exact other rfl
          simp only [Session.step, List.lookup_cons, apart]
  | call _ | same _ _ | evaluateAlone _ | parse _ =>
      simp only [Session.step]
      split <;> rfl
  | _ => rfl

theorem run_append (session : Session s) (steps more : List (Step s)) :
    (session.run (steps ++ more)).2 = ((session.run steps).2.run more).2 := by
  induction steps generalizing session with
  | nil => rfl
  | cons step steps ih => exact ih (session.step step).2

theorem run_concat (session : Session s) (steps : List (Step s)) (step : Step s) :
    (session.run (steps ++ [step])).2 = ((session.run steps).2.step step).2 :=
  run_append session steps [step]

end Session

end Trigger
