import Trigger.Proofs.Cache.Counters

/-!
# Which predicates and parses are the same one

Two predicates are the same one if they have the same number, and so are two parses.  A number is
given to what is made, never again after that, and what is kept keeps it.

* `Memo.Asked` is what asking for a text does to a memo, whether it is asked for a predicate or for
  a parse: what is found is answered, and what is not is made, with the next number.
* `Memo.Tracks` says which text leads to a given number, if any does.  Asking keeps this, whatever
  text is asked for, and clearing leaves no text.

So a number is met again under its own text only, and until the memo is cleared.
-/

namespace Trigger

variable {s : Type}

/-! ## Numbers in a memo -/

namespace Memo

variable {α : Type} {serial : α → Nat} {m after : Memo α} {minted next : Nat} {text : String}
  {value : α}

/-- A memo is asked for a text, where so many values have been made. -/
inductive Asked (serial : α → Nat) (text : String) (m : Memo α) (minted : Nat) :
    α → Memo α → Nat → Prop where
  | found {value : α} : m.find? text = some value → Asked serial text m minted value m minted
  /-- A new value has the next number. -/
  | kept {value : α} : m.find? text = none → serial value = minted →
    Asked serial text m minted value (m.insert text value) (minted + 1)
  /-- It may not be kept. -/
  | lost {value : α} : m.find? text = none → serial value = minted →
    Asked serial text m minted value m (minted + 1)

/-- The number has been given, and the value that has it is kept under the given text, if there is
one. -/
structure Tracks (serial : α → Nat) (m : Memo α) (minted number : Nat) (owner : Option String) :
    Prop where
  given : number < minted
  /-- No other text leads to the number. -/
  text : ∀ text, (∃ value, m.find? text = some value ∧ serial value = number) ↔ owner = some text

/-- Every value that is kept has a number of its own. -/
def Numbered (serial : α → Nat) (m : Memo α) (minted : Nat) : Prop :=
  ∀ text value, m.find? text = some value → m.Tracks serial minted (serial value) (some text)

theorem tracks_empty (serial : α → Nat) {number : Nat} (given : number < minted) :
    (empty : Memo α).Tracks serial minted number none where
  given := given
  text _ := by simp

theorem numbered_empty (serial : α → Nat) (minted : Nat) :
    (empty : Memo α).Numbered serial minted := by
  intro text value found
  cases found

theorem find?_insert_of_none (new : m.find? text = none) (value : α) :
    (m.insert text value).find? text = some value := by
  rw [find?_insert_self, new, Option.getD_none]

section
variable {number : Nat} {owner : Option String}

theorem Tracks.succ (tracks : m.Tracks serial minted number owner) :
    m.Tracks serial (minted + 1) number owner :=
  ⟨Nat.lt_succ_of_lt tracks.given, tracks.text⟩

theorem Tracks.not_owner (tracks : m.Tracks serial minted number owner)
    (new : m.find? text = none) : owner ≠ some text := by
  intro owns
  obtain ⟨value, found, -⟩ := (tracks.text text).mpr owns
  cases found.symm.trans new

theorem Tracks.insert (tracks : m.Tracks serial minted number owner) (new : m.find? text = none)
    (fresh : serial value = minted) :
    (m.insert text value).Tracks serial (minted + 1) number owner := by
  refine ⟨tracks.succ.given, fun other => ?_⟩
  by_cases same : other = text
  · subst same
    have apart : serial value ≠ number := by
      rw [fresh]
      exact Nat.ne_of_gt tracks.given
    simp [find?_insert_of_none new, apart, tracks.not_owner new]
  · rw [find?_insert_of_ne m same]
    exact tracks.text other

theorem Asked.tracks (asked : m.Asked serial text minted value after next)
    (tracks : m.Tracks serial minted number owner) : after.Tracks serial next number owner := by
  cases asked with
  | found _ => exact tracks
  | kept new fresh => exact tracks.insert new fresh
  | lost _ _ => exact tracks.succ

/-- The answer has the number exactly if the text is the one that leads to it. -/
theorem Asked.serial_eq_iff (asked : m.Asked serial text minted value after next)
    (tracks : m.Tracks serial minted number owner) :
    serial value = number ↔ owner = some text := by
  cases asked with
  | found known =>
      rw [← tracks.text text, known]
      simp
  | kept new fresh | lost new fresh =>
      have apart := tracks.given
      have nowhere := tracks.not_owner new
      constructor
      · omega
      · exact fun owns => absurd owns nowhere

end

/-- A value that is kept under a new text is the only one with its number. -/
theorem Numbered.tracks_insert (numbered : m.Numbered serial minted) (new : m.find? text = none)
    (fresh : serial value = minted) :
    (m.insert text value).Tracks serial (minted + 1) (serial value) (some text) := by
  refine ⟨by omega, fun other => ?_⟩
  by_cases same : other = text
  · subst same
    simp [find?_insert_of_none new]
  · rw [find?_insert_of_ne m same]
    constructor
    · rintro ⟨old, found, equal⟩
      have given := (numbered other old found).given
      omega
    · intro owns
      exact absurd (Option.some.inj owns).symm same

theorem Asked.numbered (asked : m.Asked serial text minted value after next)
    (numbered : m.Numbered serial minted) : after.Numbered serial next := by
  cases asked with
  | found _ => exact numbered
  | lost _ _ => exact fun other old found => (numbered other old found).succ
  | kept new fresh =>
      intro other old found
      by_cases same : other = text
      · subst same
        rw [find?_insert_of_none new] at found
        cases found
        exact numbered.tracks_insert new fresh
      · rw [find?_insert_of_ne m same] at found
        exact (numbered other old found).insert new fresh

end Memo

/-! ## Numbers in a cache -/

theorem Registry.asked_parse (r : Registry) (text : String) :
    r.known.Asked Parsed.serial text r.minted (r.parse text).1 (r.parse text).2.known
      (r.parse text).2.minted := by
  cases known : r.known.find? text with
  | some parsed =>
      rw [parse_known known]
      exact .found known
  | none =>
      rw [parse_new known]
      cases (r.fresh text).isExpr || r.keepsFailures with
      | true => exact .kept known rfl
      | false => exact .lost known rfl

/-- A parse that leads to an expression is kept. -/
theorem Registry.find?_parse {r : Registry} {text : String}
    (isExpr : (r.parse text).1.isExpr = true) :
    (r.parse text).2.known.find? text = some (r.parse text).1 := by
  cases known : r.known.find? text with
  | some parsed => rwa [parse_known known]
  | none =>
      rw [parse_new known] at isExpr ⊢
      simp only [isExpr, Bool.true_or, if_true]
      exact Memo.find?_insert_of_none known _

namespace Cache

theorem asked_compile (c : Cache) (text : String) :
    c.predicates.Asked Predicate.serial text c.minted (c.compile text).1
      (c.compile text).2.predicates (c.compile text).2.minted := by
  cases known : c.predicates.find? text with
  | some p =>
      rw [compile_known known]
      exact .found known
  | none =>
      rw [compile_new known]
      exact .kept known rfl

theorem find?_compile (c : Cache) (text : String) :
    (c.compile text).2.predicates.find? text = some (c.compile text).1 := by
  cases known : c.predicates.find? text with
  | some p => rwa [compile_known known]
  | none =>
      rw [compile_new known]
      exact Memo.find?_insert_of_none known _

/-- The number of a predicate, and the text whose predicate it is. -/
def Tracks (c : Cache) (number : Nat) (owner : Option String) : Prop :=
  c.predicates.Tracks Predicate.serial c.minted number owner

/-- The number of a parse, and the text whose parse it is. -/
def TracksParse (c : Cache) (number : Nat) (owner : Option String) : Prop :=
  c.registry.known.Tracks Parsed.serial c.registry.minted number owner

/-- What a property of a registry that each parse keeps is kept by compiling. -/
theorem registry_compile_induction {P : Registry → Prop} {c : Cache} (holds : P c.registry)
    (parse : ∀ text, P (c.registry.parse text).2) (text : String) :
    P (c.compile text).2.registry := by
  by_cases spared : c.contains text = true ∨ c.config.Recognizes text
  · rwa [registry_compile_of_spared c spared]
  · obtain ⟨miss, unknown⟩ := not_or.mp spared
    rw [registry_compile_of_parsed c miss unknown]
    exact parse text

/-- All that is kept has a number of its own. -/
structure Numbered (c : Cache) : Prop where
  predicates : c.predicates.Numbered Predicate.serial c.minted
  parses : c.registry.known.Numbered Parsed.serial c.registry.minted

theorem numbered_empty (config : Config) : (empty config).Numbered :=
  ⟨Memo.numbered_empty _ _, Memo.numbered_empty _ _⟩

theorem Numbered.onCache {c : Cache} (numbered : c.Numbered) (step : Step s) :
    (step.onCache c).Numbered := by
  refine Step.onCache_induction ?_ ?_ numbered step ?_ ?_
  · intro c text numbered
    refine ⟨(c.asked_compile text).numbered numbered.predicates, ?_⟩
    exact registry_compile_induction
      (P := fun r => r.known.Numbered Parsed.serial r.minted) numbered.parses
      (fun text => (c.registry.asked_parse text).numbered numbered.parses) text
  · intro c text numbered
    exact ⟨numbered.predicates, (c.registry.asked_parse text).numbered numbered.parses⟩
  · exact fun _ => ⟨Memo.numbered_empty _ _, Memo.numbered_empty _ _⟩
  · exact fun _ => ⟨numbered.predicates, Memo.numbered_empty _ _⟩

variable {c : Cache} {number : Nat} {owner : Option String}

theorem Tracks.onCache (tracks : c.Tracks number owner) {step : Step s}
    (goesOn : step.clears = false) : (step.onCache c).Tracks number owner := by
  refine Step.onCache_induction (P := fun c => c.Tracks number owner) ?_ ?_ tracks step ?_ ?_
  · exact fun text tracks => (Cache.asked_compile _ text).tracks tracks
  · exact fun _ tracks => tracks
  · intro clears
    cases goesOn.symm.trans clears
  · exact fun _ => tracks

theorem TracksParse.onCache (tracks : c.TracksParse number owner) {step : Step s}
    (goesOn : step.clearsRegistry = false) : (step.onCache c).TracksParse number owner := by
  refine Step.onCache_induction (P := fun c => c.TracksParse number owner) ?_ ?_ tracks step ?_ ?_
  · intro c text tracks
    exact registry_compile_induction
      (P := fun r => r.known.Tracks Parsed.serial r.minted number owner) tracks
      (fun text => (c.registry.asked_parse text).tracks tracks) text
  · exact fun text tracks => (Registry.asked_parse _ text).tracks tracks
  · intro clears
    cases step with
    | clear => cases goesOn
    | _ => cases clears
  · intro clears
    cases goesOn.symm.trans clears

theorem Tracks.forgotten (tracks : c.Tracks number owner) {step : Step s}
    (clears : step.clears = true) : (step.onCache c).Tracks number none := by
  cases step with
  | clear => exact Memo.tracks_empty _ tracks.given
  | _ => cases clears

theorem TracksParse.forgotten (tracks : c.TracksParse number owner) {step : Step s}
    (clears : step.clearsRegistry = true) : (step.onCache c).TracksParse number none := by
  cases step with
  | clear | clearRegistry => exact Memo.tracks_empty _ tracks.given
  | _ => cases clears

end Cache

/-! ## Numbers along a run -/

namespace Session

/-- The text that leads to a number behind steps, some of which may forget. -/
def ownerBehind (forgets : Step s → Bool) (steps : List (Step s)) (owner : Option String) :
    Option String :=
  if steps.any forgets then none else owner

theorem ownerBehind_cons (forgets : Step s → Bool) (step : Step s) (steps : List (Step s))
    (owner : Option String) :
    ownerBehind forgets (step :: steps) owner =
      ownerBehind forgets steps (ownerBehind forgets [step] owner) := by
  cases forgets? : forgets step <;> simp [ownerBehind, forgets?]

theorem ownerBehind_eq_some_iff {forgets : Step s → Bool} {steps : List (Step s)} {a b : String} :
    ownerBehind forgets steps (some a) = some b ↔ a = b ∧ ∀ step ∈ steps, forgets step = false := by
  unfold ownerBehind
  cases some? : steps.any forgets with
  | true =>
      obtain ⟨step, mem, forgotten⟩ := List.any_eq_true.mp some?
      simp only [if_true, reduceCtorEq, false_iff]
      rintro ⟨-, none⟩
      cases forgotten.symm.trans (none step mem)
  | false =>
      have none : ∀ step ∈ steps, forgets step = false := by
        simpa using some?
      simp only [Bool.false_eq_true, if_false, Option.some.injEq]
      exact ⟨fun same => ⟨same, none⟩, fun both => both.1⟩

theorem tracked_run (tracked : Cache → Option String → Prop) (forgets : Step s → Bool)
    (goesOn : ∀ {c owner step}, tracked c owner → forgets step = false →
      tracked (step.onCache c) owner)
    (forgotten : ∀ {c owner step}, tracked c owner → forgets step = true →
      tracked (step.onCache c) none)
    {session : Session s} {owner : Option String} (here : tracked session.cache owner)
    (steps : List (Step s)) :
    tracked (session.run steps).2.cache (ownerBehind forgets steps owner) := by
  induction steps generalizing session owner with
  | nil => exact here
  | cons step steps ih =>
      have next : tracked (session.step step).2.cache (ownerBehind forgets [step] owner) := by
        rw [cache_step_eq]
        cases forgets? : forgets step with
        | true => simpa [ownerBehind, forgets?] using forgotten here forgets?
        | false => simpa [ownerBehind, forgets?] using goesOn here forgets?
      rw [ownerBehind_cons]
      exact ih next

theorem numbered_run (config : Config) (setting : Setting s) (live : Live s)
    (steps : List (Step s)) : ((start config setting live).run steps).2.cache.Numbered := by
  induction steps using List.reverseRecOn with
  | nil => exact Cache.numbered_empty config
  | append_singleton steps step ih =>
      rw [run_concat, cache_step_eq]
      exact ih.onCache step

theorem kept_run (session : Session s) {steps : List (Step s)} {name : String}
    (other : ∀ step ∈ steps, step.keeps? ≠ some name) :
    (session.run steps).2.kept.lookup name = session.kept.lookup name := by
  induction steps generalizing session with
  | nil => rfl
  | cons step steps ih =>
      obtain ⟨first, rest⟩ := List.forall_mem_cons.mp other
      exact (ih (session.step step).2 rest).trans (kept_step session first)

/-- The predicate of a text is found again, behind any steps, by the same text and no other. -/
theorem serial_compile_eq_iff {session : Session s} (numbered : session.cache.Numbered)
    (a b : String) (keep : Option String) (between : List (Step s)) :
    let later := ((session.step (.compile a keep)).2.run between).2
    (session.cache.compile a).1.serial = (later.cache.compile b).1.serial ↔
      a = b ∧ ∀ step ∈ between, step.clears = false := by
  intro later
  have behind : (session.step (.compile a keep)).2.cache.Tracks
      (session.cache.compile a).1.serial (some a) := by
    have made := (numbered.onCache (.compile a keep : Step s)).predicates a
    exact made _ (session.cache.find?_compile a)
  have tracks := tracked_run (fun c => c.Tracks (session.cache.compile a).1.serial) Step.clears
    (fun tracks => tracks.onCache) (fun tracks => tracks.forgotten) behind between
  rw [eq_comm, (later.cache.asked_compile b).serial_eq_iff tracks, ownerBehind_eq_some_iff]

/-- So is the parse of an expression. -/
theorem serial_parse_eq_iff {session : Session s} (numbered : session.cache.Numbered)
    {a : String} (isExpr : (session.parse a).1.isExpr = true) (b : String)
    (between : List (Step s)) :
    let later := ((session.step (.parse a)).2.run between).2
    (session.parse a).1.serial = (later.parse b).1.serial ↔
      a = b ∧ ∀ step ∈ between, step.clearsRegistry = false := by
  intro later
  have behind : (session.step (.parse a)).2.cache.TracksParse (session.parse a).1.serial
      (some a) := by
    rw [cache_step_eq]
    have made := (numbered.onCache (.parse a : Step s)).parses a
    exact made _ (Registry.find?_parse isExpr)
  have tracks := tracked_run (fun c => c.TracksParse (session.parse a).1.serial)
    Step.clearsRegistry (fun tracks => tracks.onCache) (fun tracks => tracks.forgotten) behind
    between
  have asked := later.cache.registry.asked_parse b
  rw [eq_comm, ← ownerBehind_eq_some_iff]
  exact asked.serial_eq_iff tracks

/-- What is kept under two names is told apart by the texts, too. -/
theorem step_same_eq {session : Session s} (numbered : session.cache.Numbered) (a b : String)
    {x y : String} (apart : x ≠ y) {between behind : List (Step s)}
    (keepsX : ∀ step ∈ between ++ behind, step.keeps? ≠ some x)
    (keepsY : ∀ step ∈ behind, step.keeps? ≠ some y) :
    let later := (session.run (.compile a (some x) :: between ++ .compile b (some y) :: behind)).2
    (later.step (.same x y)).1 =
      .flag (decide (a = b ∧ ∀ step ∈ between, step.clears = false)) := by
  intro later
  obtain ⟨keepsBetween, keepsBehind⟩ := List.forall_mem_append.mp keepsX
  let first := (session.step (.compile a (some x))).2
  let second := ((first.run between).2.step (.compile b (some y))).2
  have run : later = (second.run behind).2 := run_append first between _
  have keptX : later.kept.lookup x = some (session.cache.compile a).1 := by
    have other : (Step.compile b (some y) : Step s).keeps? ≠ some x :=
      fun same => apart (Option.some.inj same).symm
    rw [run, kept_run second keepsBehind, kept_step _ other, kept_run first keepsBetween]
    exact List.lookup_cons_self
  have keptY : later.kept.lookup y = some ((first.run between).2.cache.compile b).1 := by
    rw [run, kept_run second keepsY]
    exact List.lookup_cons_self
  have shared := serial_compile_eq_iff numbered a b (some x) between
  simp only [Session.step, keptX, keptY]
  exact congrArg Answer.flag (decide_eq_decide.mpr shared)

theorem step_sameTree_eq {session : Session s} (numbered : session.cache.Numbered) {a b : String}
    {x y : Expr} (first : (session.parse a).1.outcome = .ok x)
    (second : ((session.parse a).2.parse b).1.outcome = .ok y) :
    (session.step (.sameTree a b)).1 = .trees (decide (a = b)) (x.same y) := by
  have isExpr : (session.parse a).1.isExpr = true := by rw [Parsed.isExpr, first]
  have behind : (session.step (.parse a)).2 = (session.parse a).2 := by
    simp only [Session.step]
    split <;> rfl
  have shared := serial_parse_eq_iff numbered isExpr b []
  simp only [Session.run, behind, List.not_mem_nil, false_implies, implies_true, and_true] at shared
  simp only [Session.step, compareTrees, first, second]
  rw [decide_eq_decide.mpr shared]

/-- Behind any steps, two texts are compiled, with any steps in between.  The predicates are the
same one exactly if the texts are equal and nothing in between has cleared the cache; so are the
predicates that are kept under two names, whatever comes behind.  Two parses of expressions are the
same one exactly if the texts are equal and nothing in between has cleared the cache or the
registry. -/
theorem shared_iff_same_text (config : Config) (setting : Setting s) (live : Live s)
    (before between : List (Step s)) (a b : String) :
    let session := ((start config setting live).run before).2
    (∀ keep,
      let later := ((session.step (.compile a keep)).2.run between).2
      (session.cache.compile a).1.serial = (later.cache.compile b).1.serial ↔
        a = b ∧ ∀ step ∈ between, step.clears = false) ∧
    (∀ x y behind, x ≠ y → (∀ step ∈ between ++ behind, step.keeps? ≠ some x) →
      (∀ step ∈ behind, step.keeps? ≠ some y) →
      let later :=
        (session.run (.compile a (some x) :: between ++ .compile b (some y) :: behind)).2
      (later.step (.same x y)).1 =
        .flag (decide (a = b ∧ ∀ step ∈ between, step.clears = false))) ∧
    ((session.parse a).1.isExpr = true →
      let later := ((session.step (.parse a)).2.run between).2
      (session.parse a).1.serial = (later.parse b).1.serial ↔
        a = b ∧ ∀ step ∈ between, step.clearsRegistry = false) ∧
    (∀ x y, (session.parse a).1.outcome = .ok x →
      ((session.parse a).2.parse b).1.outcome = .ok y →
      (session.step (.sameTree a b)).1 = .trees (decide (a = b)) (x.same y)) := by
  intro session
  have numbered : session.cache.Numbered := numbered_run config setting live before
  refine ⟨?_, ?_, ?_, ?_⟩
  · exact fun keep => serial_compile_eq_iff numbered a b keep between
  · exact fun x y behind apart keepsX keepsY => step_same_eq numbered a b apart keepsX keepsY
  · exact fun isExpr => serial_parse_eq_iff numbered isExpr b between
  · exact fun x y first second => step_sameTree_eq numbered first second

theorem shared_iff_same_text_cleared :
    let session := ((start {} countingSetting (.fresh 0)).run [.evaluate "x(", .clear]).2
    let between : List (Step Nat) := [.evaluate "true", .clearRegistry, .parse "x("]
    let kept := (session.run (.compile "true" (some "p") :: between ++
      .compile "true" (some "q") :: [.clear])).2
    let parsed := ((session.step (.parse "true")).2.run between).2
    (kept.step (.same "p" "q")).1 = .flag true ∧
      (session.parse "true").1.serial ≠ (parsed.parse "true").1.serial ∧
      (session.step (.sameTree "true" "true")).1 = .trees true true := by
  intro session between kept parsed
  obtain ⟨-, predicates, parses, trees⟩ := shared_iff_same_text {} countingSetting (.fresh 0)
    [.evaluate "x(", .clear] between "true" "true"
  refine ⟨?_, ?_, ?_⟩
  · exact predicates "p" "q" [.clear] (by decide) (by simp [between, Step.keeps?])
      (by simp [Step.keeps?])
  · intro same
    obtain ⟨-, none⟩ := (parses rfl).mp same
    cases none .clearRegistry (by simp [between])
  · exact trees (.literal (.boolean true)) (.literal (.boolean true)) rfl rfl

end Session

end Trigger
