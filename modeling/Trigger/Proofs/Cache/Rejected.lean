import Trigger.Proofs.Cache.Tiers

/-!
# Texts that are no expressions

A text that the parser rejects becomes nothing.  The forms of the catalog read a text on their own,
without the parser, but whatever they recognize is an expression (`Shape.parses_of_specialize?`), so
none of them takes a rejected text.  Its plan is `Plan.nothing` then, for every configuration, and
the call of this plan is absent and leaves the state alone.

The state of the world is a part of that state.  So in a world that records what it is asked,
nothing is recorded: neither the subject is read, nor a function or an object is called.
-/

namespace Trigger

variable {s : Type}

/-- No form of the catalog takes a text that the parser rejects. -/
theorem Shape.specialize?_eq_none {cs : List Char} {failure : ParseFailure}
    (rejected : Expr.ofText cs = .error failure) : Shape.specialize? cs = none := by
  cases found : Shape.specialize? cs with
  | none => rfl
  | some pair =>
      obtain ⟨form, shape⟩ := pair
      obtain ⟨e, parsed, -⟩ := Shape.parses_of_specialize? found
      rw [rejected] at parsed
      cases parsed

namespace Cache

variable {text : String} {failure : ParseFailure}

theorem treeOf_of_rejected (rejected : Expr.ofText text.toList = .error failure)
    (config : Config) : treeOf config text = .nothing := by
  rw [treeOf, rejected]

theorem planOf_of_rejected (rejected : Expr.ofText text.toList = .error failure)
    (config : Config) : planOf config text = .nothing := by
  rw [planOf, Shape.specialize?_eq_none rejected, treeOf_of_rejected rejected]
  exact ite_self _

end Cache

namespace Session

/-- Behind any steps, in any setting, a text that the parser rejects has the tier of parsed texts
and is absent, by the cache and by the parser alone.  So is its predicate, where it is kept and
called in another setting.  Nothing is asked and nothing is produced: the state stays what it is. -/
theorem rejected_text_is_inert {config : Config} {session : Session s}
    (reached : session.Reached config) {text : String} {failure : ParseFailure}
    (rejected : Expr.ofText text.toList = .error failure) :
    let evaluated := session.step (.evaluate text)
    let walked := session.step (.evaluateText text)
    Shape.specialize? text.toList = none ∧
    (∀ keep, (session.step (.compile text keep)).1 = .tier .generic) ∧
    (evaluated.1 = .value .absent ∧ evaluated.2.live = session.live) ∧
    (walked.1 = .value .absent ∧ walked.2.live = session.live) ∧
    ∀ name setting live,
      let kept := (session.step (.compile text (some name))).2
      let entered := (kept.step (.enter setting live)).2
      entered.step (.call name) = (.value .absent, entered) := by
  intro evaluated walked
  have sound := reached.cache.1
  have compiled : (session.cache.compile text).1.plan = .nothing := by
    rw [(sound.compile text).1, Cache.planOf_of_rejected rejected]
  refine ⟨Shape.specialize?_eq_none rejected, ?_, ?_, ?_, ?_⟩
  · intro keep
    simp only [Session.step, compiled]
    rfl
  · have called : evaluated = _ := step_evaluate sound text
    rw [called, Cache.planOf_of_rejected rejected]
    exact ⟨rfl, rfl⟩
  · have called : walked = _ := step_evaluateText sound text
    rw [called, Cache.treeOf_of_rejected rejected]
    exact ⟨rfl, rfl⟩
  · intro name setting live kept entered
    have found : entered.kept.lookup name = some (session.cache.compile text).1 := by
      simp [entered, kept, Session.step]
    simp only [Session.step, found, compiled]
    rfl

theorem rejected_text_is_inert_call :
    let session := ((start {} countingSetting (.fresh 0)).run [.evaluate "f(1)"]).2
    let evaluated := session.step (.evaluate "f(1")
    let walked := session.step (.evaluateText "f(1")
    Shape.specialize? "f(1".toList = none ∧
    (∀ keep, (session.step (.compile "f(1" keep)).1 = .tier .generic) ∧
    (evaluated.1 = .value .absent ∧ evaluated.2.live = session.live) ∧
    (walked.1 = .value .absent ∧ walked.2.live = session.live) ∧
    ∀ name setting live,
      let kept := (session.step (.compile "f(1" (some name))).2
      let entered := (kept.step (.enter setting live)).2
      entered.step (.call name) = (.value .absent, entered) :=
  rejected_text_is_inert ⟨countingSetting, .fresh 0, [.evaluate "f(1)"], rfl⟩ rfl

end Session

end Trigger
