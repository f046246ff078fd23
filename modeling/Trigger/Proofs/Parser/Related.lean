import Trigger.Proofs.Parser.Adequacy

/-!
# Related runs

A `Relatedness` relates cursors that no run can tell apart: the same items follow, and a step to the
next item keeps them related.  It also says how errors from related cursors are related.

A run follows another one if it comes to a related outcome wherever the other one comes to any
(`Relatedness.Follows`).  Every way to put runs together keeps this, so a parser follows itself over
other runs of its rules as soon as these follow (`Parser.follows_run`).
-/

namespace Trigger

/-- Cursors that look the same to a run, and errors that differ in their places only. -/
structure Relatedness (τ : Type) where
  cursors : Cursor τ → Cursor τ → Prop
  errors : ParseError → ParseError → Prop
  rest_eq : cursors c c' → c'.rest = c.rest
  step : cursors ⟨p, item :: rest⟩ ⟨p', item :: rest⟩ → cursors ⟨p + 1, rest⟩ ⟨p' + 1, rest⟩
  lt_iff : cursors c c' → cursors d d' → (c'.position < d'.position ↔ c.position < d.position)
  endOfInput : errors .endOfInput .endOfInput
  noAlternative : errors .noAlternative .noAlternative
  unexpected : cursors c c' →
    errors (.unexpected expected found (c.position + 1))
      (.unexpected expected found (c'.position + 1))
  unsatisfied :
    cursors c c' → errors (.unsatisfied (c.position + 1)) (.unsatisfied (c'.position + 1))
  within : errors e e' → errors (.within part e) (.within part e')

namespace Relatedness

variable {τ α β γ : Type} {r : Relatedness τ}

/-- The other way round. -/
def symm (r : Relatedness τ) : Relatedness τ where
  cursors c c' := r.cursors c' c
  errors e e' := r.errors e' e
  rest_eq related := (r.rest_eq related).symm
  step := r.step
  lt_iff here there := (r.lt_iff here there).symm
  endOfInput := r.endOfInput
  noAlternative := r.noAlternative
  unexpected := r.unexpected
  unsatisfied := r.unsatisfied
  within := r.within

/-- The second outcome is related to the first one, unless that one is endless. -/
inductive Outcomes (r : Relatedness τ) : Outcome τ α → Outcome τ α → Prop
  | endless : Outcomes r .endless o
  | success : r.cursors c c' → Outcomes r (.success value c) (.success value c')
  | failure : r.errors e e' → Outcomes r (.failure e) (.failure e')

theorem Outcomes.map {o o' : Outcome τ α} (related : r.Outcomes o o') (f : α → β) :
    r.Outcomes (o.map f) (o'.map f) := by
  cases related with
  | endless => exact .endless
  | success next => exact .success next
  | failure errors => exact .failure errors

theorem Outcomes.within {o o' : Outcome τ α} (related : r.Outcomes o o') (part : String) :
    r.Outcomes (o.within part) (o'.within part) := by
  cases related with
  | endless => exact .endless
  | success next => exact .success next
  | failure errors => exact .failure (r.within errors)

/-- The second run comes to a related outcome wherever the first one comes to any. -/
def Follows (r : Relatedness τ) (run run' : Run τ α) : Prop :=
  ∀ ⦃c c' : Cursor τ⦄, r.cursors c c' → r.Outcomes (run c) (run' c')

theorem Follows.cases {run run' : Run τ α} (follows : r.Follows run run') {c c' : Cursor τ}
    (related : r.cursors c c') :
    run c = .endless ∨
    (∃ value d d', run c = .success value d ∧ run' c' = .success value d' ∧ r.cursors d d') ∨
    ∃ e e', run c = .failure e ∧ run' c' = .failure e' ∧ r.errors e e' := by
  have outcomes := follows related
  generalize run c = o, run' c' = o' at outcomes
  cases outcomes with
  | endless => exact .inl rfl
  | success next => exact .inr (.inl ⟨_, _, _, rfl, rfl, next⟩)
  | failure errors => exact .inr (.inr ⟨_, _, rfl, rfl, errors⟩)

theorem follows_equal [DecidableEq τ] [Written τ] (value : τ) :
    r.Follows (Run.equal value) (Run.equal value) := by
  rintro ⟨p, rest⟩ ⟨p', rest'⟩ related
  obtain rfl : rest' = rest := r.rest_eq related
  cases rest' with
  | nil => exact .failure r.endOfInput
  | cons item rest =>
      by_cases same : item = value
      · simpa only [Run.equal, same, if_true] using .success (r.step related)
      · simpa only [Run.equal, same, if_false] using .failure (r.unexpected related)

theorem follows_satisfy (read : τ → Option α) :
    r.Follows (Run.satisfy read) (Run.satisfy read) := by
  rintro ⟨p, rest⟩ ⟨p', rest'⟩ related
  obtain rfl : rest' = rest := r.rest_eq related
  cases rest' with
  | nil => exact .failure r.endOfInput
  | cons item rest =>
      cases means : read item with
      | none => simpa only [Run.satisfy, means] using .failure (r.unsatisfied related)
      | some value => simpa only [Run.satisfy, means] using .success (r.step related)

theorem follows_never : r.Follows (Run.never : Run τ α) Run.never :=
  fun _ _ _ => .failure r.noAlternative

theorem Follows.orElse {first first' second second' : Run τ α} (left : r.Follows first first')
    (right : r.Follows second second') :
    r.Follows (Run.orElse first second) (Run.orElse first' second') := by
  intro c c' related
  rw [Run.orElse, Run.orElse]
  rcases left.cases related with stuck | ⟨value, d, d', read, read', next⟩ |
    ⟨e, e', fails, fails', -⟩
  · rw [stuck]
    exact .endless
  · rw [read, read']
    exact .success next
  · rw [fails, fails']
    exact right related

theorem Follows.map {run run' : Run τ α} (here : r.Follows run run') (f : α → β) :
    r.Follows (Run.map f run) (Run.map f run') :=
  fun _ _ related => (here related).map f

theorem Follows.within {run run' : Run τ α} (here : r.Follows run run') (part : String) :
    r.Follows (Run.within part run) (Run.within part run') :=
  fun _ _ related => (here related).within part

theorem Follows.optional {run run' : Run τ α} (here : r.Follows run run') :
    r.Follows (Run.optional run) (Run.optional run') := by
  intro c c' related
  rw [Run.optional, Run.optional]
  rcases here.cases related with stuck | ⟨value, d, d', read, read', next⟩ |
    ⟨e, e', fails, fails', -⟩
  · rw [stuck]
    exact .endless
  · rw [read, read']
    exact .success next
  · rw [fails, fails']
    exact .success related

theorem Follows.pair {first first' : Run τ α} {second second' : Run τ β}
    (left : r.Follows first first') (right : r.Follows second second') :
    r.Follows (Run.pair first second) (Run.pair first' second') := by
  intro c c' related
  rcases left.cases related with stuck | ⟨a, d, d', read, read', next⟩ |
    ⟨e, e', fails, fails', errors⟩
  · rw [Run.pair, stuck]
    exact .endless
  · rw [Run.pair_of_success read, Run.pair_of_success read']
    exact (right next).map _
  · rw [Run.pair_of_failure fails, Run.pair_of_failure fails']
    exact .failure errors

theorem Follows.triple {first first' : Run τ α} {second second' : Run τ β} {third third' : Run τ γ}
    (left : r.Follows first first') (middle : r.Follows second second')
    (right : r.Follows third third') :
    r.Follows (Run.triple first second third) (Run.triple first' second' third') :=
  left.pair (middle.pair right)

theorem Follows.preceded {first first' : Run τ α} {second second' : Run τ β}
    (left : r.Follows first first') (right : r.Follows second second') :
    r.Follows (Run.preceded first second) (Run.preceded first' second') := by
  rw [Run.preceded_eq_map_pair, Run.preceded_eq_map_pair]
  exact (left.pair right).map _

theorem Follows.delimited {first first' : Run τ α} {second second' : Run τ β}
    {third third' : Run τ γ} (left : r.Follows first first')
    (middle : r.Follows second second') (right : r.Follows third third') :
    r.Follows (Run.delimited first second third) (Run.delimited first' second' third') := by
  rw [Run.delimited_eq_map_triple, Run.delimited_eq_map_triple]
  exact (left.triple middle right).map _

theorem Follows.manyWithin {item item' : Run τ α} (here : r.Follows item item') (rounds : Nat) :
    r.Follows (Run.manyWithin item rounds) (Run.manyWithin item' rounds) := by
  induction rounds with
  | zero => exact fun _ _ _ => .endless
  | succ rounds ih =>
      intro c c' related
      rcases here.cases related with stuck | ⟨value, d, d', read, read', next⟩ |
        ⟨e, e', fails, fails', -⟩
      · rw [Run.manyWithin, stuck]
        exact .endless
      · by_cases further : c.position < d.position
        · rw [Run.manyWithin_of_lt read further,
            Run.manyWithin_of_lt read' ((r.lt_iff related next).mpr further)]
          exact (ih next).map _
        · rw [Run.manyWithin_of_not_lt read further,
            Run.manyWithin_of_not_lt read' (mt (r.lt_iff related next).mp further)]
          exact .success related
      · rw [Run.manyWithin_of_failure fails, Run.manyWithin_of_failure fails']
        exact .success related

theorem Follows.many {item item' : Run τ α} (here : r.Follows item item') :
    r.Follows (Run.many item) (Run.many item') := by
  intro c c' related
  rw [Run.many, Run.many, r.rest_eq related]
  exact here.manyWithin _ related

theorem Follows.separatedWithin {item item' : Run τ α} {separator separator' : Run τ β}
    (here : r.Follows item item') (mark : r.Follows separator separator') (rounds : Nat) :
    r.Follows (Run.separatedWithin item separator rounds)
      (Run.separatedWithin item' separator' rounds) := by
  induction rounds with
  | zero => exact fun _ _ _ => .endless
  | succ rounds ih =>
      intro c c' related
      rcases mark.cases related with
        stuck | ⟨_, m, m', marked, marked', behind⟩ | ⟨e, e', fails, fails', -⟩
      · rw [Run.separatedWithin, stuck]
        exact .endless
      · rcases here.cases behind with
          stuck | ⟨value, d, d', read, read', next⟩ | ⟨e, e', fails, fails', -⟩
        · simp only [Run.separatedWithin, marked, stuck]
          exact .endless
        · by_cases further : c.position < d.position
          · rw [Run.separatedWithin_of_lt marked read further,
              Run.separatedWithin_of_lt marked' read' ((r.lt_iff related next).mpr further)]
            exact (ih next).map _
          · -- Only the first list has to go on forever: what the second one does is left open.
            rw [Run.separatedWithin_of_not_lt marked read further]
            exact .endless
        · rw [Run.separatedWithin_of_trailing marked fails,
            Run.separatedWithin_of_trailing marked' fails']
          exact .success behind
      · rw [Run.separatedWithin_of_failure fails, Run.separatedWithin_of_failure fails']
        exact .success related

theorem Follows.separated {item item' : Run τ α} {separator separator' : Run τ β}
    (here : r.Follows item item') (mark : r.Follows separator separator') :
    r.Follows (Run.separated item separator) (Run.separated item' separator') := by
  intro c c' related
  rcases here.cases related with stuck | ⟨value, d, d', read, read', next⟩ |
    ⟨e, e', fails, fails', -⟩
  · rw [Run.separated, stuck]
    exact .endless
  · rw [Run.separated_of_success read, Run.separated_of_success read', r.rest_eq next]
    exact (here.separatedWithin mark _ next).map _
  · rw [Run.separated_of_failure fails, Run.separated_of_failure fails']
    exact .success related

end Relatedness

variable {τ : Type} [DecidableEq τ] [Written τ] {r : Relatedness τ}

theorem Parser.follows_run {ρ : Type → Type} {callRule callRule' : {α : Type} → ρ α → Run τ α}
    (calls : ∀ {α : Type} (rule : ρ α), r.Follows (callRule rule) (callRule' rule)) {α : Type}
    (parser : Parser τ ρ α) : r.Follows (parser.run callRule) (parser.run callRule') := by
  induction parser with
  | equal value => exact Relatedness.follows_equal value
  | satisfy read => exact Relatedness.follows_satisfy read
  | never => exact Relatedness.follows_never
  | orElse _ _ first second => exact first.orElse second
  | map f _ here => exact here.map f
  | many _ here => exact here.many
  | separated _ _ item separator => exact item.separated separator
  | optional _ here => exact here.optional
  | pair _ _ first second => exact first.pair second
  | triple _ _ _ first second third => exact first.triple second third
  | preceded _ _ first second => exact first.preceded second
  | delimited _ _ _ left middle right => exact left.delimited middle right
  | within part _ here => exact here.within part
  | call rule => exact calls rule

/-- Runs of parsers follow where the runs of the calls do. -/
theorem Grammar.follows_of_calls {g : Grammar τ} {depth depth' : Nat}
    (calls : ∀ {α : Type} (rule : g.Rule α),
      r.Follows (g.runWithin depth (.call rule)) (g.runWithin depth' (.call rule)))
    {α : Type} (parser : Parser τ g.Rule α) :
    r.Follows (g.runWithin depth parser) (g.runWithin depth' parser) := by
  rw [runWithin_eq g depth, runWithin_eq g depth']
  exact parser.follows_run calls

/-- A deeper run follows. -/
theorem Grammar.follows_runWithin (g : Grammar τ) {depth depth' : Nat} (le : depth ≤ depth')
    {α : Type} (parser : Parser τ g.Rule α) :
    r.Follows (g.runWithin depth parser) (g.runWithin depth' parser) := by
  induction depth generalizing depth' α with
  | zero => cases depth' <;> exact parser.follows_run fun _ _ _ _ => .endless
  | succ depth ih =>
      obtain ⟨depth', rfl⟩ := Nat.exists_eq_add_of_le' (Nat.one_le_of_lt le)
      exact parser.follows_run fun rule => ih (Nat.le_of_succ_le_succ le) (g.body rule)

end Trigger
