import Mathlib.Data.Finset.Card
import Mathlib.Data.List.DropRight
import Trigger.Proofs.Cache.History

/-!
# What a cache has counted and what it holds

Which predicates and parses a cache holds, and what its counters say, can be read off the steps that
led to it.

* The texts that predicates were asked for since the last `clear` are `Step.compiledSince`.  A cache
  counts them (`Cache.Tallies`): each one is a hit or a miss, and the misses are the different ones.
* A text came to the registry if a step parsed it (`Step.Hands`) and nothing behind that step has
  cleared the registry (`Handed`).  Compiling a text parses it where it is a miss and has no shape,
  so a registry that was cleared on its own is not filled again by hits.

`Cache.Accounts` is both together.  It holds of an empty cache and each step keeps it.
-/

namespace Trigger

variable {s : Type}

/-! ## What the steps ask for -/

/-- A text that is compiled from its shape. -/
def Config.Recognizes (config : Config) (text : String) : Prop :=
  config.specializes = true ∧ (Shape.specialize? text.toList).isSome = true

/-- A text whose parse is kept. -/
def Config.Keeps (config : Config) (text : String) : Prop :=
  (∃ expr, Expr.ofText text.toList = .ok expr) ∨ config.keepsFailures = true

namespace Step

/-- The texts that predicates were asked for since the last `clear`, in order. -/
def compiledSince (steps : List (Step s)) : List String :=
  (steps.rtakeWhile fun step => !step.clears).filterMap compiled?

theorem compiledSince_clear (steps : List (Step s)) {step : Step s} (clears : step.clears = true) :
    compiledSince (steps ++ [step]) = [] := by
  simp [compiledSince, clears]

theorem compiledSince_concat (steps : List (Step s)) {step : Step s}
    (goesOn : step.clears = false) :
    compiledSince (steps ++ [step]) = compiledSince steps ++ step.compiled?.toList := by
  have last : [step].filterMap compiled? = step.compiled?.toList := by
    cases asked : step.compiled? <;> simp [asked]
  simp [compiledSince, goesOn, last]

/-- The step parses the text, behind the steps before it. -/
def Hands (config : Config) (before : List (Step s)) (text : String) : Step s → Prop
  | .compile asked _ | .evaluate asked =>
      asked = text ∧ text ∉ compiledSince before ∧ ¬ config.Recognizes text
  | .evaluateText asked | .evaluateAlone asked | .parse asked => asked = text
  | .sameTree a b => a = text ∨ b = text
  | _ => False

end Step

/-- Some step has parsed the text, and no step behind it has cleared the registry. -/
def Handed (config : Config) (steps : List (Step s)) (text : String) : Prop :=
  ∃ before step behind, steps = before ++ step :: behind ∧ step.Hands config before text ∧
    ∀ later ∈ behind, later.clearsRegistry = false

theorem not_handed_nil (config : Config) (text : String) :
    ¬ Handed config ([] : List (Step s)) text := by
  rintro ⟨before, step, behind, split, -⟩
  simp at split

theorem handed_concat_iff (config : Config) (steps : List (Step s)) (step : Step s)
    (text : String) :
    Handed config (steps ++ [step]) text ↔
      step.Hands config steps text ∨ (step.clearsRegistry = false ∧ Handed config steps text) := by
  constructor
  · rintro ⟨before, hands, behind, split, parsed, kept⟩
    rcases split_concat split with ⟨rfl, rfl, -⟩ | ⟨more, rfl, rfl⟩
    · exact .inl parsed
    · obtain ⟨kept, last⟩ := List.forall_mem_append.mp kept
      exact .inr ⟨last step (List.mem_singleton_self step), before, hands, more, rfl, parsed, kept⟩
  · rintro (parsed | ⟨last, before, hands, behind, rfl, parsed, kept⟩)
    · exact ⟨steps, step, [], rfl, parsed, nofun⟩
    · refine ⟨before, hands, behind ++ [step], by simp, parsed, ?_⟩
      exact List.forall_mem_append.mpr ⟨kept, by simpa using last⟩

/-! ## What one question does -/

theorem Memo.contains_insert_iff {α : Type} (m : Memo α) (text other : String) (value : α) :
    (m.insert text value).contains other = true ↔ other = text ∨ m.contains other = true := by
  by_cases same : other = text
  · subst same
    simp [Memo.contains, Memo.find?_insert_self]
  · simp [Memo.contains, Memo.find?_insert_of_ne m same, same]

namespace Stats

theorem hits_miss (c : Stats) (tier : Tier) : (c.miss tier).hits = c.hits := by
  cases tier <;> rfl

theorem misses_miss (c : Stats) (tier : Tier) : (c.miss tier).misses = c.misses + 1 := by
  cases tier <;> rfl

theorem made_miss (c : Stats) (tier : Tier) :
    (c.miss tier).specialized + (c.miss tier).generic = c.specialized + c.generic + 1 := by
  cases tier <;> simp only [Stats.miss] <;> omega

end Stats

namespace Registry

theorem keepsFailures_parse (r : Registry) (text : String) :
    (r.parse text).2.keepsFailures = r.keepsFailures := by
  cases found : r.known.find? text with
  | some parsed => rw [parse_known found]
  | none => rw [parse_new found]

theorem isExpr_fresh_iff (r : Registry) (text : String) :
    (r.fresh text).isExpr = true ↔ ∃ expr, Expr.ofText text.toList = .ok expr := by
  unfold Parsed.isExpr fresh
  cases Expr.ofText text.toList <;> simp

/-- Behind a parse, a registry holds one text more if its outcome is one that is kept. -/
theorem contains_parse_iff (r : Registry) (text other : String) :
    (r.parse text).2.contains other = true ↔ r.contains other = true ∨
      (other = text ∧ ((∃ expr, Expr.ofText text.toList = .ok expr) ∨ r.keepsFailures = true)) := by
  rw [← isExpr_fresh_iff r, ← Bool.or_eq_true]
  cases found : r.known.find? text with
  | some parsed =>
      rw [parse_known found]
      constructor
      · exact .inl
      · rintro (known | ⟨rfl, -⟩)
        · exact known
        · simp [Registry.contains, Memo.contains, found]
  | none =>
      rw [parse_new found]
      cases keeps : (r.fresh text).isExpr || r.keepsFailures with
      | true =>
          simp only [Registry.contains, if_true, Memo.contains_insert_iff, and_true]
          exact or_comm
      | false => simp [Registry.contains]

end Registry

namespace Cache

theorem contains_iff {c : Cache} {text : String} :
    c.contains text = true ↔ ∃ p, c.predicates.find? text = some p :=
  Option.isSome_iff_exists

/-- A text is not parsed if there is a predicate already, or if it has a shape. -/
theorem registry_compile_of_spared (c : Cache) {text : String}
    (spared : c.contains text = true ∨ c.config.Recognizes text) :
    (c.compile text).2.registry = c.registry := by
  cases found : c.predicates.find? text with
  | some p => rw [compile_known found]
  | none =>
      rcases spared with known | ⟨specializes, recognized⟩
      · obtain ⟨p, there⟩ := contains_iff.mp known
        cases found.symm.trans there
      · obtain ⟨found', shape⟩ := Option.isSome_iff_exists.mp recognized
        rw [compile_new found, Cache.plan, if_pos specializes, shape]

/-- Otherwise it is. -/
theorem registry_compile_of_parsed (c : Cache) {text : String} (miss : ¬ c.contains text = true)
    (unknown : ¬ c.config.Recognizes text) :
    (c.compile text).2.registry = (c.registry.parse text).2 := by
  have new : c.predicates.find? text = none := by
    simpa [Cache.contains, Memo.contains] using miss
  have parses : (c.plan text).2 = (c.parsePlan text).2 := by
    unfold Cache.plan
    split
    · rename_i specializes
      cases recognized : Shape.specialize? text.toList with
      | none => rfl
      | some found => exact absurd ⟨specializes, by simp [recognized]⟩ unknown
    · rfl
  rw [compile_new new, parses, Cache.parsePlan]
  simp only
  split <;> rfl

theorem keepsFailures_compile (c : Cache) (text : String) :
    (c.compile text).2.registry.keepsFailures = c.registry.keepsFailures := by
  by_cases spared : c.contains text = true ∨ c.config.Recognizes text
  · rw [registry_compile_of_spared c spared]
  · obtain ⟨miss, unknown⟩ := not_or.mp spared
    rw [registry_compile_of_parsed c miss unknown, Registry.keepsFailures_parse]

/-- The counters and the predicates of a cache that was asked for texts. -/
structure Tallies (texts : List String) (c : Cache) : Prop where
  /-- Each time, there was a predicate or there was none. -/
  asked : c.stats.hits + c.stats.misses = texts.length
  /-- Where there was none, one was made, from a shape or otherwise. -/
  made : c.stats.misses = c.stats.specialized + c.stats.generic
  /-- It is kept. -/
  size : c.size = c.stats.misses
  /-- There is one for each text. -/
  distinct : c.size = texts.toFinset.card
  contains : ∀ text, c.contains text = true ↔ text ∈ texts

theorem tallies_nil {c : Cache} (nothing : c.predicates = .empty) (zero : c.stats = {}) :
    Tallies [] c := by
  constructor <;> simp [zero, nothing, Cache.size, Cache.contains]

/-- Only the predicates and the counters are of account. -/
theorem Tallies.of_eq {texts : List String} {c other : Cache} (tallies : Tallies texts c)
    (predicates : other.predicates = c.predicates) (stats : other.stats = c.stats) :
    Tallies texts other := by
  obtain ⟨asked, made, size, distinct, contains⟩ := tallies
  rw [Cache.size, ← predicates] at size distinct
  simp only [Cache.contains, ← predicates] at contains
  rw [← stats] at asked made size
  exact ⟨asked, made, size, distinct, contains⟩

theorem Tallies.hit {texts : List String} {c : Cache} (tallies : Tallies texts c) {text : String}
    (known : text ∈ texts) : Tallies (texts ++ [text]) { c with stats := c.stats.hit } := by
  constructor
  · have asked := tallies.asked
    simp only [Stats.hit, List.length_append, List.length_singleton]
    omega
  · exact tallies.made
  · exact tallies.size
  · have same : (texts ++ [text]).toFinset = texts.toFinset := by simp [known]
    rw [same]
    exact tallies.distinct
  · intro other
    refine (tallies.contains other).trans ⟨fun mem => List.mem_append_left _ mem, fun mem => ?_⟩
    rcases List.mem_append.mp mem with mem | mem
    · exact mem
    · rwa [List.mem_singleton.mp mem]

theorem Tallies.compile {texts : List String} {c : Cache} (tallies : Tallies texts c)
    (text : String) : Tallies (texts ++ [text]) (c.compile text).2 := by
  cases found : c.predicates.find? text with
  | some p =>
      rw [compile_known found]
      exact tallies.hit ((tallies.contains text).mp (contains_iff.mpr ⟨p, found⟩))
  | none =>
      have miss : c.predicates.contains text = false := by simp [Memo.contains, found]
      have new : text ∉ texts := by
        rw [← tallies.contains text, Cache.contains, miss]
        exact Bool.false_ne_true
      have size : (c.predicates.insert text (c.fresh text)).size = c.size + 1 := by
        simp [Memo.size_insert, miss, Cache.size]
      rw [compile_new found]
      constructor
      · rw [Stats.hits_miss, Stats.misses_miss, ← Nat.add_assoc, tallies.asked]
        simp
      · rw [Stats.misses_miss, Stats.made_miss, tallies.made]
      · rw [Cache.size, size, Stats.misses_miss, tallies.size]
      · rw [Cache.size, size, tallies.distinct]
        simp [new]
      · intro other
        rw [Cache.contains, Memo.contains_insert_iff, List.mem_append, List.mem_singleton, or_comm]
        exact or_congr_left (tallies.contains other)

end Cache

/-! ## What every step does -/

namespace Cache

/-- What a cache has counted and what it holds, behind steps from an empty one. -/
structure Accounts (config : Config) (steps : List (Step s)) (c : Cache) : Prop where
  /-- The settings are the given ones. -/
  settings : c.config = config
  /-- So are those of the registry. -/
  keeps : c.registry.keepsFailures = config.keepsFailures
  /-- It has counted what it was asked for since the last `clear`. -/
  tallies : c.Tallies (Step.compiledSince steps)
  /-- Its registry holds what came to it, as far as it is kept. -/
  parses : ∀ text, c.registry.contains text = true ↔ Handed config steps text ∧ config.Keeps text

theorem accounts_empty (config : Config) : (empty config).Accounts config ([] : List (Step s)) where
  settings := rfl
  keeps := rfl
  tallies := tallies_nil rfl rfl
  parses text := by simp [empty, Registry.empty, Registry.contains, not_handed_nil]

theorem contains_parse_iff {config : Config} {c : Cache}
    (keeps : c.registry.keepsFailures = config.keepsFailures) (asked text : String) :
    (c.parse asked).2.registry.contains text = true ↔
      c.registry.contains text = true ∨ (asked = text ∧ config.Keeps text) := by
  rw [Config.Keeps, ← keeps, Cache.parse]
  refine (c.registry.contains_parse_iff asked text).trans (or_congr_right ?_)
  constructor
  · rintro ⟨rfl, kept⟩
    exact ⟨rfl, kept⟩
  · rintro ⟨rfl, kept⟩
    exact ⟨rfl, kept⟩

namespace Accounts

variable {config : Config} {steps : List (Step s)} {c : Cache}

theorem contains_compile_iff (accounts : c.Accounts config steps) (asked text : String) :
    (c.compile asked).2.registry.contains text = true ↔ c.registry.contains text = true ∨
      ((asked = text ∧ text ∉ Step.compiledSince steps ∧ ¬ config.Recognizes text) ∧
        config.Keeps text) := by
  have known := accounts.tallies.contains asked
  by_cases spared : c.contains asked = true ∨ c.config.Recognizes asked
  · rw [registry_compile_of_spared c spared]
    refine ⟨.inl, ?_⟩
    rintro (there | ⟨⟨rfl, miss, unknown⟩, -⟩)
    · exact there
    · rw [known, accounts.settings] at spared
      exact (spared.elim miss unknown).elim
  · obtain ⟨miss, unknown⟩ := not_or.mp spared
    rw [registry_compile_of_parsed c miss unknown]
    refine (contains_parse_iff accounts.keeps asked text).trans (or_congr_right ?_)
    constructor
    · rintro ⟨rfl, kept⟩
      rw [known] at miss
      rw [accounts.settings] at unknown
      exact ⟨⟨rfl, miss, unknown⟩, kept⟩
    · rintro ⟨⟨same, -⟩, kept⟩
      exact ⟨same, kept⟩

/-- The texts in the registry behind a step were there before, or the step has parsed them. -/
theorem contains_onCache_iff (accounts : c.Accounts config steps) (step : Step s) (text : String) :
    (step.onCache c).registry.contains text = true ↔
      (step.Hands config steps text ∧ config.Keeps text) ∨
        (step.clearsRegistry = false ∧ c.registry.contains text = true) := by
  cases step with
  | compile asked _ | evaluate asked =>
      simpa [Step.onCache, Step.Hands, Step.clearsRegistry, or_comm] using
        accounts.contains_compile_iff asked text
  | evaluateText asked | evaluateAlone asked | parse asked =>
      simpa [Step.onCache, Step.Hands, Step.clearsRegistry, or_comm] using
        contains_parse_iff accounts.keeps asked text
  | sameTree a b =>
      have keeps : (c.parse a).2.registry.keepsFailures = config.keepsFailures :=
        (c.registry.keepsFailures_parse a).trans accounts.keeps
      have both := contains_parse_iff keeps b text
      rw [contains_parse_iff accounts.keeps a text] at both
      simp only [Step.onCache, Step.Hands, Step.clearsRegistry, both, true_and, or_and_right]
      rw [or_assoc, or_comm]
  | clear | clearRegistry =>
      simp [Step.onCache, Step.Hands, Step.clearsRegistry, Cache.clear, Cache.clearRegistry,
        Registry.clear, Registry.contains]
  | _ => simp [Step.onCache, Step.Hands, Step.clearsRegistry]

theorem settings_onCache (accounts : c.Accounts config steps) (step : Step s) :
    (step.onCache c).config = config ∧
      (step.onCache c).registry.keepsFailures = config.keepsFailures := by
  refine Step.onCache_induction
    (P := fun c => c.config = config ∧ c.registry.keepsFailures = config.keepsFailures)
    ?_ ?_ ⟨accounts.settings, accounts.keeps⟩ step ?_ ?_
  · rintro c text ⟨settings, keeps⟩
    exact ⟨(config_compile c text).trans settings, (keepsFailures_compile c text).trans keeps⟩
  · rintro c text ⟨settings, keeps⟩
    exact ⟨settings, (c.registry.keepsFailures_parse text).trans keeps⟩
  · exact fun _ => ⟨accounts.settings, accounts.keeps⟩
  · exact fun _ => ⟨accounts.settings, accounts.keeps⟩

theorem tallies_onCache (accounts : c.Accounts config steps) (step : Step s) :
    (step.onCache c).Tallies (Step.compiledSince (steps ++ [step])) := by
  cases clears : step.clears with
  | true =>
      rw [Step.compiledSince_clear steps clears]
      cases step with
      | clear => exact tallies_nil rfl rfl
      | _ => cases clears
  | false =>
      rw [Step.compiledSince_concat steps clears]
      cases step with
      | compile text _ | evaluate text => exact accounts.tallies.compile text
      | clear => cases clears
      | _ =>
          refine Tallies.of_eq (c := c) ?_ rfl rfl
          simpa [Step.compiled?] using accounts.tallies

/-- Every step is accounted for. -/
theorem concat (accounts : c.Accounts config steps) (step : Step s) :
    (step.onCache c).Accounts config (steps ++ [step]) where
  settings := (accounts.settings_onCache step).1
  keeps := (accounts.settings_onCache step).2
  tallies := accounts.tallies_onCache step
  parses text := by
    rw [accounts.contains_onCache_iff step text, handed_concat_iff, accounts.parses text,
      or_and_right, and_assoc]

end Accounts

end Cache

namespace Session

theorem accounts_run (config : Config) (setting : Setting s) (live : Live s)
    (steps : List (Step s)) :
    ((start config setting live).run steps).2.cache.Accounts config steps := by
  induction steps using List.reverseRecOn with
  | nil => exact Cache.accounts_empty config
  | append_singleton steps step ih =>
      rw [run_concat, cache_step_eq]
      exact ih.concat step

/-- Behind any steps from the start, each time a predicate was asked for since the last `clear` is
counted as a hit or a miss.  There is one miss for each text that was asked for, which is counted as
specialized or generic, and the cache holds the predicates of these texts and of no others.  The
registry holds the texts that were parsed since it was last cleared, on its own or with the cache,
if they are expressions or failures are kept. -/
theorem counters_and_contents (config : Config) (setting : Setting s) (live : Live s)
    (steps : List (Step s)) :
    let cache := ((start config setting live).run steps).2.cache
    let texts := Step.compiledSince steps
    cache.stats.hits + cache.stats.misses = texts.length ∧
    cache.stats.misses = cache.stats.specialized + cache.stats.generic ∧
    cache.stats.misses = cache.size ∧
    cache.size = texts.toFinset.card ∧
    (∀ text, cache.contains text = true ↔ text ∈ texts) ∧
    (∀ text, cache.registry.contains text = true ↔
      Handed config steps text ∧
        ((∃ expr, Expr.ofText text.toList = .ok expr) ∨ config.keepsFailures = true)) := by
  intro cache texts
  have accounts := accounts_run config setting live steps
  have tallies := accounts.tallies
  exact ⟨tallies.asked, tallies.made, tallies.size.symm, tallies.distinct, tallies.contains,
    accounts.parses⟩

end Session

end Trigger
