import Trigger.Parser.Run
import Trigger.Proofs.Parser.Language

/-!
# Runs that read a language

A run reads a language when it accepts exactly the words of the language, and each of them as far as
it goes.  What may go on behind a word is bounded by a set of items: a run that stands in front of a
word reads at least this word, and it reads exactly this word if the next item is not in the set.

Such a run decides without looking back, so it may be put together from others.  Each way of `Run`
has one lemma here.  The side conditions ask that the items that start the second part are not among
those that may go on behind the first one.

Every statement is about the cursors with fewer than `bound` items behind them.  A part that stands
behind an item is only needed below a smaller bound, which is what ends the recursion of a grammar.
-/

namespace Trigger

namespace Cursor

variable {τ : Type}

/-- The place behind a word, in front of the given items. -/
def past (c : Cursor τ) (word rest : List τ) : Cursor τ := ⟨c.position + word.length, rest⟩

@[simp]
theorem past_rest (c : Cursor τ) (word rest : List τ) : (c.past word rest).rest = rest := rfl

theorem past_nil {c : Cursor τ} {rest : List τ} (here : c.rest = rest) : c.past [] rest = c := by
  subst here
  rfl

theorem past_past (c : Cursor τ) (u v rest rest' : List τ) :
    (c.past u rest).past v rest' = c.past (u ++ v) rest' := by
  simp [past, Nat.add_assoc]

end Cursor

namespace Run

variable {τ α β γ : Type}

/-- A run reads a language at a cursor, where only the items in `follow` may go on behind a word. -/
structure ReadsAt (run : Run τ α) (L : Language τ α) (follow : τ → Prop) (c : Cursor τ) : Prop where
  /-- The run ends. -/
  ends : run c ≠ .endless
  /-- What it accepts is a word of the language. -/
  sound : ∀ {v next}, run c = .success v next →
    ∃ u rest, c.rest = u ++ rest ∧ next = c.past u rest ∧ L u v
  /-- It reads as far as any word of the language does. -/
  reaches : ∀ {u v rest}, L u v → c.rest = u ++ rest →
    ∃ w next, run c = .success w next ∧ next.rest.length ≤ rest.length
  /-- It reads a word of the language that nothing goes on behind. -/
  exact : ∀ {u v rest}, L u v → c.rest = u ++ rest → (∀ t ∈ rest.head?, ¬ follow t) →
    run c = .success v (c.past u rest)

/-- A run reads a language at every cursor with fewer than `bound` items behind it. -/
def Reads (run : Run τ α) (L : Language τ α) (follow : τ → Prop) (bound : Nat) : Prop :=
  ∀ c : Cursor τ, c.rest.length < bound → ReadsAt run L follow c

namespace ReadsAt

variable {run : Run τ α} {L : Language τ α} {follow : τ → Prop} {c : Cursor τ}

/-- Where no word of the language starts, the run fails. -/
theorem fails (reads : ReadsAt run L follow c) (none : ∀ u v rest, c.rest = u ++ rest → ¬ L u v) :
    ∃ e, run c = .failure e := by
  cases outcome : run c with
  | success v next =>
      obtain ⟨u, rest, eq, -, word⟩ := reads.sound outcome
      exact absurd word (none u v rest eq)
  | failure e => exact ⟨e, rfl⟩
  | endless => exact absurd outcome reads.ends

/-- Where the next item starts no word of the language, the run fails. -/
theorem fails_of_head {first : τ → Prop} (reads : ReadsAt run L follow c)
    (starts : L.StartsIn first) (head : ∀ t ∈ c.rest.head?, ¬ first t) :
    ∃ e, run c = .failure e := by
  refine reads.fails ?_
  intro u v rest eq word
  obtain ⟨t, w, rfl, ht⟩ := starts u v word
  exact head t (by simp [eq]) ht

/-- A run that accepts does not go back. -/
theorem length_le (reads : ReadsAt run L follow c) {v : α} {next : Cursor τ}
    (outcome : run c = .success v next) : next.rest.length ≤ c.rest.length := by
  obtain ⟨u, rest, eq, rfl, -⟩ := reads.sound outcome
  simp [eq]

theorem congr {M : Language τ α} {follow' : τ → Prop} (reads : ReadsAt run L follow c)
    (same : ∀ u v, L u v ↔ M u v) (wider : ∀ t, follow t → follow' t) :
    ReadsAt run M follow' c where
  ends := reads.ends
  sound outcome := by
    obtain ⟨u, rest, eq, here, word⟩ := reads.sound outcome
    exact ⟨u, rest, eq, here, (same _ _).mp word⟩
  reaches word eq := reads.reaches ((same _ _).mpr word) eq
  exact word eq stop :=
    reads.exact ((same _ _).mpr word) eq fun t ht goes => stop t ht (wider t goes)

end ReadsAt

theorem Reads.congr {run : Run τ α} {L M : Language τ α} {follow follow' : τ → Prop} {bound : Nat}
    (reads : Reads run L follow bound) (same : ∀ u v, L u v ↔ M u v)
    (wider : ∀ t, follow t → follow' t) : Reads run M follow' bound :=
  fun c short => (reads c short).congr same wider

theorem Reads.mono {run : Run τ α} {L : Language τ α} {follow : τ → Prop} {bound bound' : Nat}
    (reads : Reads run L follow bound) (le : bound' ≤ bound) : Reads run L follow bound' :=
  fun c short => reads c (Nat.lt_of_lt_of_le short le)

theorem ReadsAt.of_failure {run : Run τ α} {L : Language τ α} {c : Cursor τ} {e : ParseError}
    (fails : run c = .failure e) (none : ∀ u v rest, c.rest = u ++ rest → ¬ L u v)
    (follow : τ → Prop) : ReadsAt run L follow c where
  ends := by simp [fails]
  sound outcome := by simp [fails] at outcome
  reaches word eq := absurd word (none _ _ _ eq)
  exact word eq _ := absurd word (none _ _ _ eq)

/-! ## One item -/

/-- A run that reads one item by its reading. -/
theorem reads_item {run : Run τ α} {read : τ → Option α}
    (empty : ∀ position, ∃ e, run ⟨position, []⟩ = .failure e)
    (miss : ∀ position t items, read t = none → ∃ e, run ⟨position, t :: items⟩ = .failure e)
    (hit : ∀ position t items v, read t = some v →
      run ⟨position, t :: items⟩ = .success v ⟨position + 1, items⟩) (bound : Nat) :
    Reads run (.item read) (fun _ => False) bound := by
  rintro ⟨position, items⟩ -
  cases items with
  | nil =>
      obtain ⟨e, fails⟩ := empty position
      refine .of_failure fails ?_ _
      rintro u v rest eq ⟨t, rfl, -⟩
      cases eq
  | cons item items =>
      cases found : read item with
      | none =>
          obtain ⟨e, fails⟩ := miss position item items found
          refine .of_failure fails ?_ _
          rintro u v rest eq ⟨t, rfl, ht⟩
          cases eq
          rw [found] at ht
          cases ht
      | some value =>
          have reads := hit position item items value found
          constructor
          · simp [reads]
          · intro v next outcome
            rw [reads] at outcome
            cases outcome
            exact ⟨[item], items, rfl, rfl, item, rfl, found⟩
          · rintro u v rest ⟨t, rfl, ht⟩ eq
            cases eq
            exact ⟨value, _, reads, Nat.le_refl _⟩
          · rintro u v rest ⟨t, rfl, ht⟩ eq -
            cases eq
            rw [found] at ht
            cases ht
            exact reads

theorem reads_satisfy (read : τ → Option α) (bound : Nat) :
    Reads (satisfy read) (.item read) (fun _ => False) bound := by
  apply reads_item
  · intro position
    exact ⟨_, rfl⟩
  · intro position t items missing
    exact ⟨.unsatisfied (position + 1), by simp [satisfy, missing]⟩
  · intro position t items v found
    simp [satisfy, found]

theorem reads_equal [DecidableEq τ] [Written τ] (value : τ) (bound : Nat) :
    Reads (equal value) (.only value) (fun _ => False) bound := by
  have reads : Reads (equal value) (.item fun t => if t = value then some t else none)
      (fun _ => False) bound := by
    apply reads_item
    · intro position
      exact ⟨_, rfl⟩
    · intro position t items missing
      by_cases same : t = value
      · simp [same] at missing
      · exact ⟨_, by simp only [equal, same, if_false]; rfl⟩
    · intro position t items v found
      by_cases same : t = value
      · simp_all [equal]
      · simp [same] at found
  refine reads.congr ?_ fun _ => id
  intro u v
  constructor
  · rintro ⟨t, rfl, found⟩
    by_cases same : t = value
    · simp_all [Language.only]
    · simp [same] at found
  · rintro ⟨rfl, rfl⟩
    exact ⟨v, rfl, by simp⟩

theorem reads_never (bound : Nat) :
    Reads (never : Run τ α) (fun _ _ => False) (fun _ => False) bound :=
  fun _ _ => .of_failure rfl (fun _ _ _ _ => id) _

/-! ## Values and names -/

theorem Reads.map {run : Run τ α} {L : Language τ α} {follow : τ → Prop} {bound : Nat}
    (reads : Reads run L follow bound) (f : α → β) :
    Reads (Run.map f run) (L.map f) follow bound := by
  intro c short
  have here := reads c short
  constructor
  · cases outcome : run c with
    | endless => exact absurd outcome here.ends
    | _ => simp [Run.map, Outcome.map, outcome]
  · intro w next outcome
    cases result : run c with
    | success v next' =>
        simp only [Run.map, Outcome.map, result, Outcome.success.injEq] at outcome
        obtain ⟨rfl, rfl⟩ := outcome
        obtain ⟨u, rest, eq, rfl, word⟩ := here.sound result
        exact ⟨u, rest, eq, rfl, v, word, rfl⟩
    | failure e => simp [Run.map, Outcome.map, result] at outcome
    | endless => simp [Run.map, Outcome.map, result] at outcome
  · rintro u w rest ⟨v, word, rfl⟩ eq
    obtain ⟨w, next, outcome, le⟩ := here.reaches word eq
    exact ⟨f w, next, by simp [Run.map, Outcome.map, outcome], le⟩
  · rintro u w rest ⟨v, word, rfl⟩ eq stop
    simp [Run.map, Outcome.map, here.exact word eq stop]

theorem Reads.within {run : Run τ α} {L : Language τ α} {follow : τ → Prop} {bound : Nat}
    (reads : Reads run L follow bound) (part : String) :
    Reads (Run.within part run) L follow bound := by
  intro c short
  have here := reads c short
  constructor
  · cases outcome : run c with
    | endless => exact absurd outcome here.ends
    | _ => simp [Run.within, Outcome.within, outcome]
  · intro v next outcome
    cases result : run c with
    | success v' next' =>
        simp only [Run.within, Outcome.within, result] at outcome
        exact here.sound (result.trans outcome)
    | failure e => simp [Run.within, Outcome.within, result] at outcome
    | endless => simp [Run.within, Outcome.within, result] at outcome
  · intro u v rest word eq
    obtain ⟨w, next, outcome, le⟩ := here.reaches word eq
    exact ⟨w, next, by simp [Run.within, Outcome.within, outcome], le⟩
  · intro u v rest word eq stop
    simp [Run.within, Outcome.within, here.exact word eq stop]

/-! ## Alternatives -/

/-- Alternatives that start with different items. -/
theorem Reads.orElse {first second : Run τ α} {L M : Language τ α} {followL followM : τ → Prop}
    {startL startM : τ → Prop} {bound : Nat} (left : Reads first L followL bound)
    (right : Reads second M followM bound) (startsL : L.StartsIn startL)
    (startsM : M.StartsIn startM) (apart : ∀ t, startL t → ¬ startM t) :
    Reads (Run.orElse first second) (L.union M) (fun t => followL t ∨ followM t) bound := by
  intro c short
  have hereL := left c short
  have hereM := right c short
  -- In front of a word of `M` no word of `L` starts, so the first run gives way.
  have givesWay : ∀ u v rest, M u v → c.rest = u ++ rest →
      Run.orElse first second c = second c := by
    intro u v rest word eq
    obtain ⟨t, w, rfl, ht⟩ := startsM u v word
    obtain ⟨e, fails⟩ := hereL.fails_of_head startsL (by
      intro t' mem hl
      simp [eq] at mem
      subst mem
      exact apart t hl ht)
    simp [Run.orElse, fails]
  constructor
  · cases outcome : first c with
    | success v next => simp [Run.orElse, outcome]
    | failure e => simpa [Run.orElse, outcome] using hereM.ends
    | endless => exact absurd outcome hereL.ends
  · intro v next outcome
    cases result : first c with
    | success v' next' =>
        simp only [Run.orElse, result] at outcome
        obtain ⟨u, rest, eq, rfl, word⟩ := hereL.sound (result.trans outcome)
        exact ⟨u, rest, eq, rfl, .inl word⟩
    | failure e =>
        simp only [Run.orElse, result] at outcome
        obtain ⟨u, rest, eq, rfl, word⟩ := hereM.sound outcome
        exact ⟨u, rest, eq, rfl, .inr word⟩
    | endless => exact absurd result hereL.ends
  · rintro u v rest (word | word) eq
    · obtain ⟨w, next, outcome, le⟩ := hereL.reaches word eq
      exact ⟨w, next, by simp [Run.orElse, outcome], le⟩
    · obtain ⟨w, next, outcome, le⟩ := hereM.reaches word eq
      exact ⟨w, next, (givesWay u v rest word eq).trans outcome, le⟩
  · rintro u v rest (word | word) eq stop
    · have outcome := hereL.exact word eq fun t ht goes => stop t ht (.inl goes)
      simp [Run.orElse, outcome]
    · rw [givesWay u v rest word eq]
      exact hereM.exact word eq fun t ht goes => stop t ht (.inr goes)

/-- Words of the language, or nothing.  The run goes on wherever a word may start. -/
theorem Reads.optional {run : Run τ α} {L : Language τ α} {follow start : τ → Prop} {bound : Nat}
    (reads : Reads run L follow bound) (starts : L.StartsIn start) :
    Reads (Run.optional run) L.option (fun t => follow t ∨ start t) bound := by
  intro c short
  have here := reads c short
  constructor
  · cases outcome : run c with
    | endless => exact absurd outcome here.ends
    | _ => simp [Run.optional, outcome]
  · intro v next outcome
    cases result : run c with
    | success v' next' =>
        simp only [Run.optional, result, Outcome.success.injEq] at outcome
        obtain ⟨rfl, rfl⟩ := outcome
        obtain ⟨u, rest, eq, rfl, word⟩ := here.sound result
        exact ⟨u, rest, eq, rfl, word⟩
    | failure e =>
        simp only [Run.optional, result, Outcome.success.injEq] at outcome
        obtain ⟨rfl, rfl⟩ := outcome
        exact ⟨[], c.rest, rfl, (Cursor.past_nil rfl).symm, rfl⟩
    | endless => exact absurd result here.ends
  · intro u v rest word eq
    cases v with
    | some v =>
        obtain ⟨w, next, outcome, le⟩ := here.reaches word eq
        exact ⟨some w, next, by simp [Run.optional, outcome], le⟩
    | none =>
        cases word
        cases outcome : run c with
        | success w next =>
            refine ⟨some w, next, by simp [Run.optional, outcome], ?_⟩
            rw [List.nil_append] at eq
            exact eq ▸ here.length_le outcome
        | failure e => exact ⟨none, c, by simp [Run.optional, outcome], by simp [eq]⟩
        | endless => exact absurd outcome here.ends
  · intro u v rest word eq stop
    cases v with
    | some v =>
        have outcome := here.exact word eq fun t ht goes => stop t ht (.inl goes)
        simp [Run.optional, outcome]
    | none =>
        cases word
        rw [List.nil_append] at eq
        obtain ⟨e, fails⟩ := here.fails_of_head starts (by
          intro t mem ht
          exact stop t (eq ▸ mem) (.inr ht))
        simp [Run.optional, fails, Cursor.past_nil eq]

/-! ## One after the other -/

/-- One run after the other.  The second one starts behind a word of the first, and so it may need a
smaller bound.  If it may read nothing, what goes on behind the first goes on behind both. -/
theorem Reads.pair {first : Run τ α} {second : Run τ β} {L : Language τ α} {M : Language τ β}
    {followL followM follow : τ → Prop} {bound bound' : Nat}
    (left : Reads first L followL bound) (right : Reads second M followM bound')
    (shrinks : ∀ u v, L u v → bound ≤ bound' + u.length)
    (apart : ∀ u v, M u v → ∀ t ∈ u.head?, ¬ followL t)
    (widerM : ∀ t, followM t → follow t)
    (widerL : ∀ v, M [] v → ∀ t, followL t → follow t) :
    Reads (Run.pair first second) (L.seq M) follow bound := by
  intro c short
  have hereL := left c short
  have hereM : ∀ u v rest, L u v → c.rest = u ++ rest →
      ReadsAt second M followM (c.past u rest) := by
    intro u v rest word eq
    apply right
    have := shrinks u v word
    simp only [eq, List.length_append, Cursor.past_rest] at short ⊢
    omega
  have afterFirst : ∀ v next, first c = .success v next →
      Run.pair first second c = (second next).map fun b => (v, b) := by
    intro v next outcome
    simp [Run.pair, Outcome.andThen, outcome]
  constructor
  · cases outcome : first c with
    | success v next =>
        obtain ⟨u, rest, eq, rfl, word⟩ := hereL.sound outcome
        rw [afterFirst v _ outcome]
        cases result : second (c.past u rest) with
        | endless => exact absurd result (hereM u v rest word eq).ends
        | _ => simp [Outcome.map]
    | failure e => simp [Run.pair, Outcome.andThen, outcome]
    | endless => exact absurd outcome hereL.ends
  · rintro ⟨a, b⟩ next outcome
    cases result : first c with
    | success v mid =>
        obtain ⟨u, rest, eq, rfl, word⟩ := hereL.sound result
        rw [afterFirst v _ result] at outcome
        cases result' : second (c.past u rest) with
        | success w last =>
            simp only [result', Outcome.map, Outcome.success.injEq, Prod.mk.injEq] at outcome
            obtain ⟨⟨rfl, rfl⟩, rfl⟩ := outcome
            obtain ⟨u', rest', eq', rfl, word'⟩ := (hereM u v rest word eq).sound result'
            rw [Cursor.past_rest] at eq'
            refine ⟨u ++ u', rest', by rw [eq, eq', List.append_assoc], ?_, u, u', rfl, word, word'⟩
            rw [Cursor.past_past]
        | failure e => simp [result', Outcome.map] at outcome
        | endless => simp [result', Outcome.map] at outcome
    | failure e => simp [Run.pair, Outcome.andThen, result] at outcome
    | endless => simp [Run.pair, Outcome.andThen, result] at outcome
  · rintro w ⟨a, b⟩ rest ⟨u₁, u₂, rfl, word₁, word₂⟩ eq
    rw [List.append_assoc] at eq
    cases u₂ with
    | nil =>
        -- The first run may go further than `u₁`, and the second one accepts wherever that ends.
        obtain ⟨v, mid, outcome, le⟩ := hereL.reaches word₁ eq
        obtain ⟨u, rest', eq', rfl, word⟩ := hereL.sound outcome
        obtain ⟨v', next, outcome', le'⟩ :=
          (hereM u v rest' word eq').reaches word₂ (List.nil_append _).symm
        refine ⟨(v, v'), next, by rw [afterFirst v _ outcome, outcome']; rfl, ?_⟩
        exact Nat.le_trans le' le
    | cons t u₂ =>
        have outcome := hereL.exact word₁ eq fun t' mem => apart _ _ word₂ t' mem
        obtain ⟨v', next, outcome', le'⟩ := (hereM u₁ a _ word₁ eq).reaches word₂ rfl
        exact ⟨(a, v'), next, by rw [afterFirst a _ outcome, outcome']; rfl, le'⟩
  · rintro w ⟨a, b⟩ rest ⟨u₁, u₂, rfl, word₁, word₂⟩ eq stop
    rw [List.append_assoc] at eq
    have outcome : first c = .success a (c.past u₁ (u₂ ++ rest)) := by
      refine hereL.exact word₁ eq ?_
      cases u₂ with
      | nil => exact fun t ht goes => stop t ht (widerL b word₂ t goes)
      | cons t u₂ => exact fun t' mem => apart _ _ word₂ t' mem
    have outcome' : second (c.past u₁ (u₂ ++ rest)) = .success b ((c.past u₁ _).past u₂ rest) :=
      (hereM u₁ a _ word₁ eq).exact word₂ rfl fun t ht goes => stop t ht (widerM t goes)
    rw [afterFirst a _ outcome, outcome', Cursor.past_past]
    rfl

/-- One run behind another that is not gone on with, so that nothing can be in the way. -/
theorem Reads.pair_of_closed {first : Run τ α} {second : Run τ β} {L : Language τ α}
    {M : Language τ β} {followM start : τ → Prop} {bound : Nat}
    (left : Reads first L (fun _ => False) bound) (right : Reads second M followM (bound - 1))
    (starts : L.StartsIn start) :
    Reads (Run.pair first second) (L.seq M) followM bound := by
  refine left.pair right ?_ (fun _ _ _ _ _ => id) (fun _ => id) (fun _ _ _ => False.elim)
  intro u v word
  have := starts.length_pos word
  omega

theorem preceded_eq_map_pair (first : Run τ α) (second : Run τ β) :
    Run.preceded first second = Run.map Prod.snd (Run.pair first second) := by
  funext c
  simp only [Run.preceded, Run.map, Run.pair]
  cases first c with
  | success a next => cases h : second next <;> simp [Outcome.andThen, Outcome.map, h]
  | failure e => rfl
  | endless => rfl

theorem delimited_eq_map_triple (left : Run τ α) (middle : Run τ β) (right : Run τ γ) :
    Run.delimited left middle right = Run.map (·.2.1) (Run.triple left middle right) := by
  funext c
  simp only [Run.delimited, Run.map, Run.triple, Run.pair]
  cases left c with
  | success a mid =>
      cases h : middle mid with
      | success b last => cases h' : right last <;> simp [Outcome.andThen, Outcome.map, h, h']
      | failure e => simp [Outcome.andThen, Outcome.map, h]
      | endless => simp [Outcome.andThen, Outcome.map, h]
  | failure e => rfl
  | endless => rfl

/-- A part between two items.  The closing item must not be one that goes on with the part. -/
theorem Reads.delimited {left : Run τ α} {middle : Run τ β} {right : Run τ γ}
    {L : Language τ α} {M : Language τ β} {R : Language τ γ} {followM startL startR : τ → Prop}
    {bound : Nat} (opens : Reads left L (fun _ => False) bound)
    (inside : Reads middle M followM (bound - 1)) (closes : Reads right R (fun _ => False) bound)
    (startsL : L.StartsIn startL) (startsR : R.StartsIn startR)
    (apart : ∀ t, startR t → ¬ followM t) :
    Reads (Run.delimited left middle right) ((L.seq (M.seq R)).map (·.2.1)) (fun _ => False)
      bound := by
  rw [delimited_eq_map_triple]
  have body : Reads (Run.pair middle right) (M.seq R) (fun _ => False) (bound - 1) := by
    refine inside.pair (closes.mono (Nat.sub_le _ _)) (fun _ _ _ => Nat.le_add_right _ _) ?_
      (fun _ => id) ?_
    · intro u v word t mem
      obtain ⟨t', w, rfl, ht⟩ := startsR u v word
      cases mem
      exact apart _ ht
    · intro v word
      obtain ⟨t', w, eq, -⟩ := startsR _ _ word
      cases eq
  exact (opens.pair_of_closed body startsL).map _

/-! ## Repetitions

A repetition that has a round left is an optional item with the repetition of one round less behind
it.  So the lemmas above say what it reads, once it is known that a repetition never fails. -/

theorem ReadsAt.of_eq {run run' : Run τ α} {L : Language τ α} {follow : τ → Prop} {c : Cursor τ}
    (reads : ReadsAt run L follow c) (same : run' c = run c) : ReadsAt run' L follow c where
  ends := same ▸ reads.ends
  sound outcome := reads.sound (same ▸ outcome)
  reaches word eq := same ▸ reads.reaches word eq
  exact word eq stop := same ▸ reads.exact word eq stop

/-- Where the language has the empty word, the run accepts. -/
theorem ReadsAt.accepts {run : Run τ α} {L : Language τ α} {follow : τ → Prop} {c : Cursor τ}
    (reads : ReadsAt run L follow c) {v : α} (empty : L [] v) :
    ∃ w next, run c = .success w next := by
  obtain ⟨w, next, outcome, -⟩ := reads.reaches empty (List.nil_append _).symm
  exact ⟨w, next, outcome⟩

/-- A head and a list, if there are any. -/
def consOption : Option (α × List α) → List α
  | none => []
  | some (v, vs) => v :: vs

theorem star_iff_option (L : Language τ α) (u : List τ) (vs : List α) :
    (L.seq L.Star).option.map consOption u vs ↔ L.Star u vs := by
  constructor
  · rintro ⟨_ | ⟨v, vs⟩, word, rfl⟩
    · cases word
      exact .nil
    · obtain ⟨u₁, u₂, rfl, head, tail⟩ := word
      exact .cons head tail
  · intro word
    cases word with
    | nil => exact ⟨none, rfl, rfl⟩
    | cons head tail => exact ⟨some (_, _), ⟨_, _, rfl, head, tail⟩, rfl⟩

/-- What a repetition reads whose rounds are as many as the bound. -/
theorem Reads.manyWithin {run : Run τ α} {L : Language τ α} {follow start : τ → Prop}
    {bound : Nat} (reads : Reads run L follow bound) (starts : L.StartsIn start)
    (apart : ∀ t, start t → ¬ follow t) (rounds : Nat) (enough : bound ≤ rounds) :
    Reads (Run.manyWithin run rounds) L.Star (fun t => follow t ∨ start t) bound := by
  induction rounds generalizing bound with
  | zero =>
      intro c short
      omega
  | succ rounds ih =>
      have later := ih (reads.mono (Nat.sub_le bound 1)) (by omega)
      have round : Reads (Run.pair run (Run.manyWithin run rounds)) (L.seq L.Star)
          (fun t => follow t ∨ start t) bound := by
        refine reads.pair later ?_ ?_ (fun _ => id) (fun _ _ _ => .inl)
        · intro u v word
          have := starts.length_pos word
          omega
        · exact fun u vs words t mem => apart t (words.starts starts t mem)
      intro c short
      refine (((round.optional (starts.seq _)).map consOption c short).congr
        (star_iff_option L) ?_).of_eq ?_
      · exact fun t goes => goes.elim id .inr
      cases outcome : run c with
      | success v next =>
          obtain ⟨u, rest, eq, rfl, word⟩ := (reads c short).sound outcome
          have pos := starts.length_pos word
          obtain ⟨vs, last, result⟩ := (later (c.past u rest) (by
            simp only [eq, List.length_append, Cursor.past_rest] at short ⊢
            omega)).accepts .nil
          have forward : c.position < (c.past u rest).position := by simp [Cursor.past, pos]
          simp [Run.manyWithin, Run.map, Run.optional, Run.pair, Outcome.andThen, Outcome.map,
            outcome, result, forward, consOption]
      | failure e =>
          simp [Run.manyWithin, Run.map, Run.optional, Run.pair, Outcome.andThen, Outcome.map,
            outcome, consOption]
      | endless => exact absurd outcome (reads c short).ends

/-- Repetitions of items that do not go on with what starts an item. -/
theorem Reads.many {run : Run τ α} {L : Language τ α} {follow start : τ → Prop} {bound : Nat}
    (reads : Reads run L follow bound) (starts : L.StartsIn start)
    (apart : ∀ t, start t → ¬ follow t) :
    Reads (Run.many run) L.Star (fun t => follow t ∨ start t) bound := by
  intro c short
  exact ((reads.mono short).manyWithin starts apart _ (Nat.le_refl _) c
    (Nat.lt_succ_self _)).of_eq rfl

/-- A head and a list behind a separator, if there are any. -/
def consBehind : Option (β × Option (α × List α)) → List α
  | none => []
  | some (_, more) => consOption more

theorem tail_iff_option (L : Language τ α) (S : Language τ β) (u : List τ) (vs : List α) :
    (S.seq (L.seq (L.Tail S)).option).option.map consBehind u vs ↔ L.Tail S u vs := by
  constructor
  · rintro ⟨_ | ⟨b, _ | ⟨v, vs⟩⟩, word, rfl⟩
    · cases word
      exact .nil
    · obtain ⟨u₁, u₂, rfl, separator, rfl⟩ := word
      rw [List.append_nil]
      exact .trailing separator
    · obtain ⟨u₁, u₂, rfl, separator, u₃, u₄, rfl, head, tail⟩ := word
      rw [← List.append_assoc]
      exact .cons separator head tail
  · intro word
    cases word with
    | nil => exact ⟨none, rfl, rfl⟩
    | trailing separator =>
        exact ⟨some (_, none), ⟨u, [], (List.append_nil _).symm, separator, rfl⟩, rfl⟩
    | cons separator head tail =>
        exact ⟨some (_, some (_, _)),
          ⟨_, _, List.append_assoc _ _ _, separator, _, _, rfl, head, tail⟩, rfl⟩

theorem listed_iff_option (L : Language τ α) (S : Language τ β) (u : List τ) (vs : List α) :
    (L.seq (L.Tail S)).option.map consOption u vs ↔ L.Listed S u vs := by
  constructor
  · rintro ⟨_ | ⟨v, vs⟩, word, rfl⟩
    · cases word
      exact .nil
    · obtain ⟨u₁, u₂, rfl, head, tail⟩ := word
      exact .cons head tail
  · intro word
    cases word with
    | nil => exact ⟨none, rfl, rfl⟩
    | cons head tail => exact ⟨some (_, _), ⟨_, _, rfl, head, tail⟩, rfl⟩

section
variable {item : Run τ α} {separator : Run τ β} {L : Language τ α} {S : Language τ β}
  {follow start startS : τ → Prop} {bound : Nat}

/-- What the rest of a list reads whose rounds are as many as the bound. -/
theorem Reads.separatedWithin (reads : Reads item L follow bound)
    (readsS : Reads separator S (fun _ => False) bound) (starts : L.StartsIn start)
    (startsS : S.StartsIn startS) (apart : ∀ t, startS t → ¬ follow t) (rounds : Nat)
    (enough : bound ≤ rounds) :
    Reads (Run.separatedWithin item separator rounds) (L.Tail S)
      (fun t => follow t ∨ start t ∨ startS t) bound := by
  induction rounds generalizing bound with
  | zero =>
      intro c short
      omega
  | succ rounds ih =>
      have less := Nat.sub_le bound 1
      have later := ih (reads.mono less) (readsS.mono less) (by omega)
      have round : Reads (Run.pair item (Run.separatedWithin item separator rounds))
          (L.seq (L.Tail S)) (fun t => follow t ∨ start t ∨ startS t) (bound - 1) := by
        refine (reads.mono less).pair later (fun _ _ _ => Nat.le_add_right _ _) ?_ (fun _ => id)
          (fun _ _ _ => .inl)
        exact fun u vs words t mem => apart t (words.starts startsS t mem)
      have body := readsS.pair_of_closed (round.optional (starts.seq _)) startsS
      intro c short
      refine (((body.optional (startsS.seq _)).map consBehind c short).congr
        (tail_iff_option L S) ?_).of_eq ?_
      · rintro t ((goes | goes) | goes)
        · exact goes
        · exact .inr (.inl goes)
        · exact .inr (.inr goes)
      cases outcome : separator c with
      | success b behind =>
          obtain ⟨u, rest, eq, rfl, wordS⟩ := (readsS c short).sound outcome
          have pos := startsS.length_pos wordS
          have shorter : (c.past u rest).rest.length < bound - 1 := by
            simp only [eq, List.length_append, Cursor.past_rest] at short ⊢
            omega
          cases result : item (c.past u rest) with
          | success v next =>
              obtain ⟨u', rest', eq', rfl, word⟩ :=
                (reads.mono less (c.past u rest) shorter).sound result
              obtain ⟨vs, last, result'⟩ := (later ((c.past u rest).past u' rest') (by
                simp only [eq', List.length_append, Cursor.past_rest] at shorter ⊢
                omega)).accepts .nil
              have forward : c.position < ((c.past u rest).past u' rest').position := by
                simp only [Cursor.past]
                omega
              simp [Run.separatedWithin, Run.map, Run.optional, Run.pair, Outcome.andThen,
                Outcome.map, outcome, result, result', forward, consBehind, consOption]
          | failure e =>
              simp [Run.separatedWithin, Run.map, Run.optional, Run.pair, Outcome.andThen,
                Outcome.map, outcome, result, consBehind, consOption]
          | endless => exact absurd result (reads.mono less (c.past u rest) shorter).ends
      | failure e =>
          simp [Run.separatedWithin, Run.map, Run.optional, Run.pair, Outcome.andThen,
            Outcome.map, outcome, consBehind]
      | endless => exact absurd outcome (readsS c short).ends

/-- All the further items of a list. -/
def separatedTail (item : Run τ α) (separator : Run τ β) : Run τ (List α) := fun c =>
  Run.separatedWithin item separator (c.rest.length + 1) c

theorem Reads.separatedTail (reads : Reads item L follow bound)
    (readsS : Reads separator S (fun _ => False) bound) (starts : L.StartsIn start)
    (startsS : S.StartsIn startS) (apart : ∀ t, startS t → ¬ follow t) :
    Reads (Run.separatedTail item separator) (L.Tail S)
      (fun t => follow t ∨ start t ∨ startS t) bound := by
  intro c short
  exact ((reads.mono short).separatedWithin (readsS.mono short) starts startsS apart _
    (Nat.le_refl _) c (Nat.lt_succ_self _)).of_eq rfl

/-- Lists of items that are not gone on with by a separator. -/
theorem Reads.separated (reads : Reads item L follow bound)
    (readsS : Reads separator S (fun _ => False) bound) (starts : L.StartsIn start)
    (startsS : S.StartsIn startS) (apart : ∀ t, startS t → ¬ follow t) :
    Reads (Run.separated item separator) (L.Listed S)
      (fun t => follow t ∨ start t ∨ startS t) bound := by
  have rest := reads.separatedTail readsS starts startsS apart
  have round : Reads (Run.pair item (Run.separatedTail item separator)) (L.seq (L.Tail S))
      (fun t => follow t ∨ start t ∨ startS t) bound := by
    refine reads.pair rest (fun _ _ _ => Nat.le_add_right _ _) ?_ (fun _ => id) (fun _ _ _ => .inl)
    exact fun u vs words t mem => apart t (words.starts startsS t mem)
  intro c short
  refine (((round.optional (starts.seq _)).map consOption c short).congr
    (listed_iff_option L S) ?_).of_eq ?_
  · exact fun t goes => goes.elim id fun ht => .inr (.inl ht)
  cases outcome : item c with
  | success v next =>
      obtain ⟨u, rest', eq, rfl, word⟩ := (reads c short).sound outcome
      obtain ⟨vs, last, result⟩ := (rest (c.past u rest') (by
        simp only [eq, List.length_append, Cursor.past_rest] at short ⊢
        omega)).accepts .nil
      simp only [Run.separatedTail, Cursor.past_rest] at result
      simp [Run.separated, Run.separatedTail, Run.map, Run.optional, Run.pair, Outcome.andThen,
        Outcome.map, outcome, result, consOption]
  | failure e =>
      simp [Run.separated, Run.map, Run.optional, Run.pair, Outcome.andThen, Outcome.map, outcome,
        consOption]
  | endless => exact absurd outcome (reads c short).ends

end

/-! ## Answers

Where a word has one value only, the answer of a run is that of the longest word. -/

section
variable {run : Run τ α} {L : Language τ α} {follow : τ → Prop} {c : Cursor τ}

theorem ReadsAt.unique (reads : ReadsAt run L follow c) {v w : α} (first : L c.rest v)
    (second : L c.rest w) : v = w := by
  have whole : c.rest = c.rest ++ [] := (List.append_nil _).symm
  have outcome := reads.exact first whole (fun _ none => nomatch none)
  rw [reads.exact second whole (fun _ none => nomatch none)] at outcome
  cases outcome
  rfl

theorem ReadsAt.success_iff (reads : ReadsAt run L follow c)
    (functional : ∀ u v w, L u v → L u w → v = w) (v : α) (next : Cursor τ) :
    run c = .success v next ↔
      ∃ u rest, c.rest = u ++ rest ∧ next = c.past u rest ∧ L u v ∧
        ∀ u' rest' v', c.rest = u' ++ rest' → L u' v' → u'.length ≤ u.length := by
  constructor
  · intro outcome
    obtain ⟨u, rest, eq, rfl, word⟩ := reads.sound outcome
    refine ⟨u, rest, eq, rfl, word, ?_⟩
    intro u' rest' v' eq' word'
    obtain ⟨w, next, outcome', le⟩ := reads.reaches word' eq'
    rw [outcome] at outcome'
    cases outcome'
    have same := congrArg List.length (eq.symm.trans eq')
    simp only [List.length_append, Cursor.past_rest] at same le
    omega
  · rintro ⟨u, rest, eq, rfl, word, longest⟩
    obtain ⟨w, next, outcome, le⟩ := reads.reaches word eq
    obtain ⟨u', rest', eq', rfl, word'⟩ := reads.sound outcome
    have short := longest u' rest' w eq' word'
    have same := congrArg List.length (eq.symm.trans eq')
    simp only [List.length_append, Cursor.past_rest] at same le
    obtain ⟨rfl, rfl⟩ := List.append_inj (eq.symm.trans eq') (by omega)
    rw [outcome, functional _ _ _ word word']

theorem ReadsAt.failure_iff (reads : ReadsAt run L follow c) :
    (∃ e, run c = .failure e) ↔ ∀ u rest v, c.rest = u ++ rest → ¬ L u v := by
  constructor
  · rintro ⟨e, fails⟩ u rest v eq word
    obtain ⟨w, next, outcome, -⟩ := reads.reaches word eq
    rw [fails] at outcome
    cases outcome
  · exact fun none => reads.fails fun u v rest => none u rest v

end

end Run

end Trigger
