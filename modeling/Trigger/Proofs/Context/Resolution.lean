import Trigger.Proofs.Context.Building

/-!
# What a name resolves to

A name resolves to what its owner binds.  A lazy owner binds what its producer answered when a name
of the owner was first asked for, in the state of the world at that moment: `Produced` says this of
the live state behind any questions, and each question keeps it.

The producers may read and change the state of the world.  So it shows there which of them have run:
it is what the producers of the owners that were asked for make of it, once each.
-/

namespace Trigger

variable {s : Type}

namespace Step

/-- The step asks the context. -/
def AsksContext : Step s → Prop
  | .resolve _ | .declares _ | .names | .materialized _ => True
  | _ => False

/-- The step resolves a name that the addition at the place owns. -/
def Demands (additions : List (Addition s)) (place : Nat) : Step s → Prop
  | .resolve name => ∃ a, Owns additions name place a
  | _ => False

end Step

/-- The state of the world behind the producer of the addition at a place. -/
def Addition.runAt (additions : List (Addition s)) (world : s) (place : Nat) : s :=
  match additions[place]?.bind Addition.produce? with
  | some produce => (produce world).2
  | none => world

/-! ## Looking up -/

namespace Live

variable {place : Nat} {l : Live s}

theorem demand_known {bindings : Bindings} (known : l.at? place = some bindings)
    (produce : StateM s Bindings) : demand place produce l = (bindings, l) := by
  simp only [demand, known]

theorem demand_new (new : l.at? place = none) (produce : StateM s Bindings) :
    demand place produce l =
      ((produce l.world).1,
        ⟨(produce l.world).2, (place, (produce l.world).1) :: l.produced⟩) := by
  simp only [demand, new]
  rfl

/-- The places whose groups have produced bindings, the latest first. -/
def places (l : Live s) : List Nat := l.produced.map (·.1)

theorem mem_places : place ∈ l.places ↔ (l.at? place).isSome = true := by
  obtain ⟨world, produced⟩ := l
  induction produced with
  | nil => simp [places, at?]
  | cons entry produced ih =>
      obtain ⟨other, bindings⟩ := entry
      rw [Context.at?_cons]
      by_cases same : place = other
      · simp [places, same]
      · simpa [places, same] using ih

end Live

namespace Context

variable {additions : List (Addition s)} {name : String} {place : Nat} {a : Addition s}

theorem resolve?_unowned (nowhere : ∀ a ∈ additions, name ∉ a.names) :
    (build additions).resolve? name = pure none := by
  rw [resolve?, owner?_build_eq_none nowhere]

theorem resolve?_eager (owns : Owns additions name place a) (eager : a.produce? = none) :
    (build additions).resolve? name = pure (a.bindings.find? name) := by
  rw [resolve?, owner?_build owns]
  simp only [Addition.toGroup, eager]

theorem resolve?_lazy (owns : Owns additions name place a) {produce : StateM s Bindings}
    (isLazy : a.produce? = some produce) (l : Live s) :
    (build additions).resolve? name l =
      ((Live.demand place produce l).1.find? name, (Live.demand place produce l).2) := by
  rw [resolve?, owner?_build owns]
  simp only [Addition.toGroup, isLazy]
  rfl

end Context

/-! ## What has been produced -/

/-- An element of a list with a property is behind a first one. -/
theorem exists_first {α : Type} {property : α → Prop} {list : List α}
    (found : ∃ a ∈ list, property a) :
    ∃ before a behind, list = before ++ a :: behind ∧ property a ∧ ∀ b ∈ before, ¬ property b := by
  induction list with
  | nil =>
      obtain ⟨a, mem, -⟩ := found
      cases mem
  | cons b list ih =>
      by_cases here : property b
      · exact ⟨[], b, list, rfl, here, nofun⟩
      · have later : ∃ a ∈ list, property a := by
          obtain ⟨a, mem, holds⟩ := found
          rcases List.mem_cons.mp mem with rfl | mem
          · exact absurd holds here
          · exact ⟨a, mem, holds⟩
        obtain ⟨before, a, behind, rfl, holds, none⟩ := ih later
        exact ⟨b :: before, a, behind, rfl, holds, List.forall_mem_cons.mpr ⟨here, none⟩⟩

namespace Session

variable {additions : List (Addition s)} {begun : Session s}

/-- What a live state holds behind steps that ask a context, which was built by additions and had
produced nothing when they began. -/
structure Produced (additions : List (Addition s)) (begun : Session s) (steps : List (Step s)) :
    Prop where
  /-- Nothing but the live state has changed. -/
  rest : (begun.run steps).2 = { begun with live := (begun.run steps).2.live }
  /-- A place that was not asked for has produced nothing. -/
  idle : ∀ place, (∀ step ∈ steps, ¬ step.Demands additions place) →
    (begun.run steps).2.live.at? place = none
  /-- A producer has answered in the world as it was when its place was first asked for. -/
  first : ∀ place a produce before demand behind, additions[place]? = some a →
    a.produce? = some produce → steps = before ++ demand :: behind →
    demand.Demands additions place → (∀ step ∈ before, ¬ step.Demands additions place) →
    (begun.run steps).2.live.at? place = some (produce (begun.run before).2.live.world).1
  /-- Only producers produce. -/
  isLazy : ∀ place ∈ (begun.run steps).2.live.places,
    (additions[place]?.bind Addition.produce?).isSome = true
  /-- Each of them has run once at most. -/
  once : (begun.run steps).2.live.places.Nodup
  /-- And nothing else has changed the world. -/
  world : (begun.run steps).2.live.world =
    (begun.run steps).2.live.places.reverse.foldl (Addition.runAt additions) begun.live.world

theorem produced_nil (additions : List (Addition s)) {setting : Setting s} {config : Config}
    (world : s) : Produced additions (start config setting (.fresh world)) [] where
  rest := rfl
  idle _ _ := rfl
  first _ _ _ before _ _ _ _ split := by simp at split
  isLazy _ mem := by cases mem
  once := .nil
  world := rfl

namespace Produced

variable {steps : List (Step s)} {step : Step s}

/-- A step that changes nothing and asks for no new producer. -/
theorem unchanged (produced : Produced additions begun steps)
    (same : ((begun.run steps).2.step step).2 = (begun.run steps).2)
    (known : ∀ place, step.Demands additions place →
      (additions[place]?.bind Addition.produce?).isSome = true →
        ∃ earlier ∈ steps, earlier.Demands additions place) :
    Produced additions begun (steps ++ [step]) := by
  have behind : (begun.run (steps ++ [step])).2 = (begun.run steps).2 := by rw [run_concat, same]
  constructor
  · rw [behind]
    exact produced.rest
  · intro place idle
    rw [behind]
    exact produced.idle place fun earlier mem => idle earlier (List.mem_append_left _ mem)
  · intro place a produce before demand later found isLazy split demands none
    rw [behind]
    rcases split_concat split with ⟨rfl, rfl, -⟩ | ⟨more, eq, -⟩
    · obtain ⟨earlier, mem, demands'⟩ := known place demands (by simp [found, isLazy])
      exact absurd demands' (none earlier mem)
    · exact produced.first place a produce before demand more found isLazy eq demands none
  · rw [behind]
    exact produced.isLazy
  · rw [behind]
    exact produced.once
  · rw [behind]
    exact produced.world

/-- A step that asks for a new producer runs it. -/
theorem produces (produced : Produced additions begun steps) {place : Nat} {a : Addition s}
    {produce : StateM s Bindings} (found : additions[place]? = some a)
    (isLazy : a.produce? = some produce)
    (demands : ∀ other, step.Demands additions other ↔ other = place)
    (new : ∀ earlier ∈ steps, ¬ earlier.Demands additions place)
    (runs : ((begun.run steps).2.step step).2 = { begun with
      live := ⟨(produce (begun.run steps).2.live.world).2,
        (place, (produce (begun.run steps).2.live.world).1) ::
          (begun.run steps).2.live.produced⟩ }) :
    Produced additions begun (steps ++ [step]) := by
  have behind := (run_concat begun steps step).trans runs
  have apart := produced.idle place new
  constructor
  · rw [behind]
  · intro other idle
    have ne : other ≠ place := fun same =>
      idle step (List.mem_append_right _ (List.mem_singleton_self _)) ((demands other).mpr same)
    rw [behind, Context.at?_cons, if_neg ne]
    exact produced.idle other fun earlier mem => idle earlier (List.mem_append_left _ mem)
  · intro other b produce' before demand later found' isLazy' split demands' none
    rw [behind, Context.at?_cons]
    rcases split_concat split with ⟨rfl, rfl, -⟩ | ⟨more, eq, -⟩
    · obtain rfl := (demands other).mp demands'
      cases found.symm.trans found'
      cases isLazy.symm.trans isLazy'
      rw [if_pos rfl]
    · have ne : other ≠ place := by
        rintro rfl
        exact new demand (by simp [eq]) demands'
      rw [if_neg ne]
      exact produced.first other b produce' before demand more found' isLazy' eq demands' none
  · rw [behind]
    refine List.forall_mem_cons.mpr ⟨by simp [found, isLazy], produced.isLazy⟩
  · rw [behind]
    refine List.nodup_cons.mpr ⟨fun mem => ?_, produced.once⟩
    rw [← Live.places, Live.mem_places, apart] at mem
    cases mem
  · rw [behind]
    simp [Live.places, Addition.runAt, found, isLazy, produced.world]

end Produced

end Session

/-! ## Questions -/

namespace Session

section
variable {additions : List (Addition s)} {session : Session s}
  (built : session.setting.context = .build additions) {name : String}
include built

theorem step_resolve_unowned (nowhere : ∀ a ∈ additions, name ∉ a.names) :
    session.step (.resolve name) = (.resolved none, session) := by
  rw [Session.step, built, Context.resolve?_unowned nowhere]
  rfl

variable {place : Nat} {a : Addition s} (owns : Owns additions name place a)
include owns

theorem step_resolve_eager (eager : a.produce? = none) :
    session.step (.resolve name) = (.resolved (a.bindings.find? name), session) := by
  rw [Session.step, built, Context.resolve?_eager owns eager]
  rfl

variable {produce : StateM s Bindings} (isLazy : a.produce? = some produce)
include isLazy

theorem step_resolve_known {bindings : Bindings}
    (known : session.live.at? place = some bindings) :
    session.step (.resolve name) = (.resolved (bindings.find? name), session) := by
  rw [Session.step, built, act, Context.resolve?_lazy owns isLazy, Live.demand_known known]

theorem step_resolve_new (new : session.live.at? place = none) :
    session.step (.resolve name) =
      (.resolved ((produce session.live.world).1.find? name),
        { session with
          live := ⟨(produce session.live.world).2,
            (place, (produce session.live.world).1) :: session.live.produced⟩ }) := by
  rw [Session.step, built, act, Context.resolve?_lazy owns isLazy, Live.demand_new new]

/-- The answer to the name of a lazy owner is in the bindings that are there from then on. -/
theorem step_resolve_lazy :
    ∃ bindings, (session.step (.resolve name)).1 = .resolved (bindings.find? name) ∧
      (session.step (.resolve name)).2.live.at? place = some bindings := by
  cases known : session.live.at? place with
  | some bindings =>
      rw [step_resolve_known built owns isLazy known]
      exact ⟨bindings, rfl, known⟩
  | none =>
      rw [step_resolve_new built owns isLazy known]
      refine ⟨_, rfl, ?_⟩
      rw [Context.at?_cons, if_pos rfl]

end

theorem demands_resolve_iff {additions : List (Addition s)} {name : String} {place : Nat}
    {a : Addition s} (owns : Owns additions name place a) (other : Nat) :
    (Step.resolve name : Step s).Demands additions other ↔ other = place := by
  constructor
  · rintro ⟨b, owns'⟩
    exact (owns'.unique owns).1
  · rintro rfl
    exact ⟨a, owns⟩

section
variable {additions : List (Addition s)} {begun : Session s} {steps : List (Step s)}
  (produced : Produced additions begun steps)
include produced

theorem Produced.context_eq : (begun.run steps).2.setting.context = begun.setting.context := by
  rw [produced.rest]

variable {place : Nat}

/-- A lazy group has its bindings where it was asked for. -/
theorem Produced.isSome_at?_iff {a : Addition s} {produce : StateM s Bindings}
    (found : additions[place]? = some a) (isLazy : a.produce? = some produce) :
    ((begun.run steps).2.live.at? place).isSome = true ↔
      ∃ step ∈ steps, step.Demands additions place := by
  constructor
  · intro there
    refine Classical.byContradiction fun nowhere => ?_
    rw [produced.idle place fun step mem asks => nowhere ⟨step, mem, asks⟩] at there
    cases there
  · intro asked
    obtain ⟨before, demand, behind, eq, demands, none⟩ := exists_first asked
    rw [produced.first place a produce before demand behind found isLazy eq demands none]
    rfl

theorem Produced.mem_places_iff :
    place ∈ (begun.run steps).2.live.places ↔
      (additions[place]?.bind Addition.produce?).isSome = true ∧
        ∃ step ∈ steps, step.Demands additions place := by
  rw [Live.mem_places]
  constructor
  · intro there
    have isLazy := produced.isLazy place (Live.mem_places.mpr there)
    obtain ⟨produce, known⟩ := Option.isSome_iff_exists.mp isLazy
    obtain ⟨a, found, known⟩ := Option.bind_eq_some_iff.mp known
    exact ⟨isLazy, (produced.isSome_at?_iff found known).mp there⟩
  · rintro ⟨isLazy, asked⟩
    obtain ⟨produce, known⟩ := Option.isSome_iff_exists.mp isLazy
    obtain ⟨a, found, known⟩ := Option.bind_eq_some_iff.mp known
    exact (produced.isSome_at?_iff found known).mpr asked

variable (built : begun.setting.context = .build additions)
include built

/-- Every question keeps what a live state holds. -/
theorem Produced.concat {step : Step s} (asks : step.AsksContext) :
    Produced additions begun (steps ++ [step]) := by
  have within : (begun.run steps).2.setting.context = .build additions :=
    produced.context_eq.trans built
  cases step with
  | resolve name =>
      by_cases declared : ∃ a ∈ additions, name ∈ a.names
      · obtain ⟨place, a, owns⟩ := Context.exists_owns declared
        have demands := demands_resolve_iff owns
        cases isLazy : a.produce? with
        | none =>
            refine produced.unchanged ?_ fun other asked produces => ?_
            · rw [step_resolve_eager within owns isLazy]
            · obtain rfl := (demands other).mp asked
              simp [owns.1, isLazy] at produces
        | some produce =>
            by_cases asked : ∃ earlier ∈ steps, earlier.Demands additions place
            · obtain ⟨before, demand, behind, eq, demanded, none⟩ := exists_first asked
              have known :=
                produced.first place a produce before demand behind owns.1 isLazy eq demanded none
              refine produced.unchanged ?_ fun other asked' _ => ?_
              · rw [step_resolve_known within owns isLazy known]
              · obtain rfl := (demands other).mp asked'
                exact asked
            · have new : ∀ earlier ∈ steps, ¬ earlier.Demands additions place :=
                fun earlier mem asks => asked ⟨earlier, mem, asks⟩
              refine produced.produces owns.1 isLazy demands new ?_
              rw [step_resolve_new within owns isLazy (produced.idle place new), produced.rest]
      · have nowhere : ∀ a ∈ additions, name ∉ a.names :=
          fun a mem here => declared ⟨a, mem, here⟩
        refine produced.unchanged ?_ ?_
        · rw [step_resolve_unowned within nowhere]
        · rintro other ⟨a, owns⟩
          exact absurd owns.mem.2 (nowhere a owns.mem.1)
  | declares _ | names | materialized _ => exact produced.unchanged rfl nofun
  | _ => exact absurd asks id

theorem Produced.run {more : List (Step s)} (asks : ∀ step ∈ more, step.AsksContext) :
    Produced additions begun (steps ++ more) := by
  induction more generalizing steps with
  | nil => simpa using produced
  | cons step more ih =>
      obtain ⟨first, rest⟩ := List.forall_mem_cons.mp asks
      have behind := ih (produced.concat built first) rest
      rwa [List.append_assoc, List.singleton_append] at behind

/-- A name that was resolved before resolves to the same value. -/
theorem Produced.resolve_again (name : String) {more : List (Step s)}
    (asks : ∀ step ∈ more, step.AsksContext) :
    let resolved := (begun.run steps).2.step (.resolve name)
    ((resolved.2.run more).2.step (.resolve name)).1 = resolved.1 := by
  intro resolved
  have next : Produced additions begun (steps ++ [.resolve name]) :=
    produced.concat built trivial
  have later := next.run built asks
  have behind : (resolved.2.run more).2 = (begun.run (steps ++ [.resolve name] ++ more)).2 := by
    rw [run_append, run_concat]
  have within := produced.context_eq.trans built
  have within' := later.context_eq.trans built
  rw [behind]
  by_cases declared : ∃ a ∈ additions, name ∈ a.names
  · obtain ⟨place, a, owns⟩ := Context.exists_owns declared
    cases isLazy : a.produce? with
    | none =>
        rw [step_resolve_eager within' owns isLazy]
        exact (congrArg Prod.fst (step_resolve_eager within owns isLazy)).symm
    | some produce =>
        obtain ⟨bindings, value, kept⟩ := step_resolve_lazy within owns isLazy
        have asked : ∃ step ∈ steps ++ [.resolve name], step.Demands additions place :=
          ⟨_, List.mem_append_right _ (List.mem_singleton_self _), a, owns⟩
        obtain ⟨before, demand, behind, eq, demands, none⟩ := exists_first asked
        have here := next.first place a produce before demand behind owns.1 isLazy eq demands none
        have there := later.first place a produce before demand (behind ++ more) owns.1 isLazy
          (by rw [eq]; simp) demands none
        rw [run_concat, kept] at here
        rw [step_resolve_known within' owns isLazy there, ← Option.some.inj here]
        exact value.symm
  · have nowhere : ∀ a ∈ additions, name ∉ a.names := fun a mem here => declared ⟨a, mem, here⟩
    rw [step_resolve_unowned within' nowhere]
    exact (congrArg Prod.fst (step_resolve_unowned within nowhere)).symm

end

/-- A context is built by additions in any order, and then it is asked any questions.  The owner of
a name is the last addition that declares it.  A name without an owner resolves to nothing, and
every other one to what its owner binds, which may be nothing, too.  A lazy owner binds what its
producer answers in the world as it was when a name of the owner was resolved for the first time;
the producer runs then and never again, so that resolving a name again leads to the same value.  The
other questions run no producer: whether a name is declared, which names are, and whether the
bindings of a group are there, which is known by the last addition under its name. -/
theorem questions_answered_by_owners (config : Config) (setting : Setting s) (world : s)
    (additions : List (Addition s)) {steps : List (Step s)}
    (asks : ∀ step ∈ steps, step.AsksContext) :
    let begun := start config { setting with context := .build additions } (.fresh world)
    let session := (begun.run steps).2
    (∀ name, (∀ a ∈ additions, name ∉ a.names) →
      session.step (.resolve name) = (.resolved none, session)) ∧
    (∀ name place a, Owns additions name place a → a.produce? = none →
      session.step (.resolve name) = (.resolved (a.bindings.find? name), session)) ∧
    (∀ name place a produce, Owns additions name place a → a.produce? = some produce →
      (∀ step ∈ steps, ¬ step.Demands additions place) →
      let resolved := session.step (.resolve name)
      resolved.1 = .resolved ((produce session.live.world).1.find? name) ∧
        resolved.2.live.world = (produce session.live.world).2) ∧
    (∀ name place a produce before demand behind, Owns additions name place a →
      a.produce? = some produce → steps = before ++ demand :: behind →
      demand.Demands additions place → (∀ step ∈ before, ¬ step.Demands additions place) →
      let asked := (begun.run before).2
      session.step (.resolve name) =
        (.resolved ((produce asked.live.world).1.find? name), session)) ∧
    (∀ name more, (∀ step ∈ more, step.AsksContext) →
      let resolved := session.step (.resolve name)
      ((resolved.2.run more).2.step (.resolve name)).1 = resolved.1) ∧
    (∃ runs : List Nat, runs.Nodup ∧
      session.live.world = runs.foldl (Addition.runAt additions) world ∧
      ∀ place, place ∈ runs ↔ (additions[place]?.bind Addition.produce?).isSome = true ∧
        ∃ step ∈ steps, step.Demands additions place) ∧
    (∀ name, ∃ declared, session.step (.declares name) = (.flag declared, session) ∧
      (declared = true ↔ ∃ a ∈ additions, name ∈ a.names)) ∧
    (∃ names, session.step .names = (.names names, session) ∧ names.Nodup ∧
      ∀ name, name ∈ names ↔ ∃ a ∈ additions, name ∈ a.names) ∧
    (∀ group, (∀ a ∈ additions, a.group ≠ group) →
      session.step (.materialized group) = (.known none, session)) ∧
    (∀ group place a, LastAt (·.group = group) additions place a →
      ∃ there, session.step (.materialized group) = (.known (some there), session) ∧
        (there = true ↔ a.produce? = none ∨ ∃ step ∈ steps, step.Demands additions place)) := by
  intro begun session
  have built : begun.setting.context = .build additions := rfl
  have produced : Produced additions begun steps :=
    (produced_nil additions world).run built asks
  have within : session.setting.context = .build additions := produced.context_eq
  refine ⟨?unowned, ?eager, ?new, ?known, ?again, ?runs, ?declares, ?names, ?unnamed, ?named⟩
  case unowned => exact fun name nowhere => step_resolve_unowned within nowhere
  case eager => exact fun name place a owns eager => step_resolve_eager within owns eager
  case new =>
    intro name place a produce owns isLazy new
    simp only
    rw [step_resolve_new within owns isLazy (produced.idle place new)]
    exact ⟨rfl, rfl⟩
  case known =>
    intro name place a produce before demand behind owns isLazy eq demands none
    have known := produced.first place a produce before demand behind owns.1 isLazy eq demands none
    exact step_resolve_known within owns isLazy known
  case again => exact fun name more asks => produced.resolve_again built name asks
  case runs =>
    refine ⟨session.live.places.reverse, ?_, produced.world, fun place => ?_⟩
    · exact (List.reverse_perm _).nodup_iff.mpr produced.once
    · rw [List.mem_reverse]
      exact produced.mem_places_iff
  case declares =>
    intro name
    refine ⟨_, rfl, ?_⟩
    rw [within]
    exact Context.contains_build
  case names =>
    refine ⟨_, rfl, ?_, fun name => ?_⟩
    · exact (Entries.sorted_ofList _).imp String.ne_of_lt
    · rw [within]
      exact Context.mem_names_build
  case unnamed =>
    intro group nowhere
    rw [Session.step, Context.isMaterialized?, within, Context.named?_build_eq_none nowhere]
    rfl
  case named =>
    intro group place a last
    rw [Session.step, Context.isMaterialized?, within, Context.named?_build last]
    refine ⟨_, rfl, ?_⟩
    cases isLazy : a.produce? with
    | none => simp [Addition.toGroup, isLazy]
    | some produce => simpa [Addition.toGroup, isLazy] using produced.isSome_at?_iff last.1 isLazy

/-- Additions to a world that counts runs.  The names `x` and `b` are declared twice, so is the
group `scan`, and its first one does not bind all that it declares. -/
def surveyed : List (Addition Nat) :=
  [.value "x" .null, .lazyHelpers "far" ["b"] fun n => ([("b", .null)], n + 1),
    .lazyHelpers "scan" ["a", "x"] fun n => ([("a", .array [])], n + 1),
    .helpers "scan" [("b", .absent)]]

theorem questions_answered_by_owners_surveyed :
    let setting : Setting Nat := { countingSetting with context := .build surveyed }
    let session := ((start {} setting (.fresh 0)).run [.names, .resolve "x", .resolve "b"]).2
    session.step (.resolve "x") = (.resolved none, session) ∧
      session.step (.resolve "a") = (.resolved (some (.array [])), session) ∧
      session.step (.resolve "b") = (.resolved (some .absent), session) ∧
      ∃ runs : List Nat, session.live.world = runs.foldl (Addition.runAt surveyed) 0 ∧
        2 ∈ runs ∧ 1 ∉ runs := by
  have asks : ∀ step ∈ ([.names, .resolve "x", .resolve "b"] : List (Step Nat)),
      step.AsksContext := by
    simp [Step.AsksContext]
  obtain ⟨-, eager, -, known, -, ⟨runs, -, world, ran⟩, -⟩ :=
    questions_answered_by_owners {} countingSetting 0 surveyed asks
  have x : Owns surveyed "x" 2 _ := Context.owns_iff.mpr rfl
  have a : Owns surveyed "a" 2 _ := Context.owns_iff.mpr rfl
  have b : Owns surveyed "b" 3 _ := Context.owns_iff.mpr rfl
  have first : ∀ step ∈ ([.names] : List (Step Nat)), ¬ step.Demands surveyed 2 := by
    simp [Step.Demands]
  refine ⟨?_, ?_, ?_, runs, world, ?_, ?_⟩
  · exact known "x" 2 _ _ [.names] (.resolve "x") [.resolve "b"] x rfl rfl ⟨_, x⟩ first
  · exact known "a" 2 _ _ [.names] (.resolve "x") [.resolve "b"] a rfl rfl ⟨_, x⟩ first
  · exact eager "b" 3 _ b rfl
  · exact (ran 2).mpr ⟨rfl, .resolve "x", by simp, _, x⟩
  · intro mem
    obtain ⟨-, step, asked, demands⟩ := (ran 1).mp mem
    simp only [List.mem_cons, List.not_mem_nil, or_false] at asked
    rcases asked with rfl | rfl | rfl
    · exact demands
    · exact absurd ((demands_resolve_iff x 1).mp demands) (by decide)
    · exact absurd ((demands_resolve_iff b 1).mp demands) (by decide)

end Session

end Trigger
