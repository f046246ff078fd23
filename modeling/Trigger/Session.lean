import Trigger.Cache.Basic
import Trigger.Expr.Canonical

/-!
# Sessions

A session is a cache in use: steps that compile, call, evaluate and ask, against one setting at a
time.  The setting is a world, a context and a subject.  Predicates may be kept under names and be
called later, in whatever setting the session is in then.

Two ways evaluate a text.  `evaluate` compiles it and calls the predicate.  `evaluateText` only
parses it, in the registry of the same cache, and evaluates the tree.
-/

namespace Trigger

/-- What texts are evaluated in. -/
structure Setting (s : Type) where
  /-- What answers for functions and objects. -/
  world : World s
  /-- What resolves names. -/
  context : Context s
  subject : Value

namespace Setting

variable {s : Type}

/-- The scope of a setting, which does not know the subject. -/
def scope (setting : Setting s) : Scope (Live s) := setting.context.scope setting.world

def call (setting : Setting s) (plan : Plan) : StateM (Live s) Value :=
  plan.eval setting.scope setting.subject

/-- The value of the outcome of a parse, absent if it failed. -/
def evalParsed (setting : Setting s) (parsed : Parsed) (subjectName : String) :
    StateM (Live s) Value :=
  match parsed.outcome with
  | .ok expr => expr.eval (setting.scope.bind subjectName setting.subject)
  | .error _ => pure .absent

end Setting

/-- A step of a session. -/
inductive Step (s : Type) where
  /-- Compiles a text, and may keep the predicate under a name. -/
  | compile (text : String) (keep : Option String)
  /-- Calls a kept predicate. -/
  | call (kept : String)
  /-- Asks whether two kept predicates are the same one. -/
  | same (a b : String)
  /-- Compiles a text and calls the predicate. -/
  | evaluate (text : String)
  /-- Parses a text and evaluates the tree. -/
  | evaluateText (text : String)
  /-- Parses a text and evaluates the tree without a subject. -/
  | evaluateAlone (text : String)
  | parse (text : String)
  /-- Parses two texts and compares the outcomes. -/
  | sameTree (a b : String)
  | stats
  /-- Asks how many predicates are kept. -/
  | size
  /-- Asks how many parses are kept. -/
  | registrySize
  /-- Asks whether a predicate is kept for a text. -/
  | contains (text : String)
  /-- Asks whether a parse is kept for a text. -/
  | registryContains (text : String)
  /-- Forgets predicates, parses and counters. -/
  | clear
  | clearRegistry
  | resolve (name : String)
  /-- Asks whether a name is declared. -/
  | declares (name : String)
  | names
  /-- Asks whether the bindings of a group are there. -/
  | materialized (group : String)
  /-- Goes into another setting. -/
  | enter (setting : Setting s) (live : Live s)

/-- The answer to a step. -/
inductive Answer where
  /-- Nothing is to be said. -/
  | done
  /-- How a text was compiled. -/
  | tier (tier : Tier)
  | value (value : Value)
  /-- A value, if there is one. -/
  | resolved (value : Option Value)
  | flag (flag : Bool)
  /-- A truth, if there is one to be told. -/
  | known (flag : Option Bool)
  | tree (expr : Expr)
  | failure (failure : ParseFailure)
  /-- Whether two parses are the same one, and whether their trees are equal. -/
  | trees (same equal : Bool)
  | stats (stats : Stats)
  | size (size : Nat)
  | names (names : List String)
  /-- There is no predicate under the name. -/
  | unknown

/-- A cache in use. -/
structure Session (s : Type) where
  cache : Cache
  /-- The predicates under names, the latest first. -/
  kept : List (String × Predicate)
  setting : Setting s
  live : Live s

namespace Session

variable {s : Type}

def start (config : Config) (setting : Setting s) (live : Live s) : Session s :=
  ⟨.empty config, [], setting, live⟩

/-- The session behind an action on the state of the setting. -/
def act {α : Type} (session : Session s) (action : StateM (Live s) α) : α × Session s :=
  let (value, live) := action session.live
  (value, { session with live := live })

def answerValue (session : Session s) (action : StateM (Live s) Value) : Answer × Session s :=
  let (value, session) := session.act action
  (.value value, session)

/-- The outcome of parsing a text, and the session behind it. -/
def parse (session : Session s) (text : String) : Parsed × Session s :=
  let (parsed, cache) := session.cache.parse text
  (parsed, { session with cache := cache })

def compareTrees (a b : Parsed) : Answer :=
  match a.outcome, b.outcome with
  | .ok x, .ok y => .trees (a.serial = b.serial) (x.same y)
  | .error e, _ => .failure e
  | .ok _, .error e => .failure e

/-- The answer to a step, and the session behind it. -/
def step (session : Session s) : Step s → Answer × Session s
  | .compile text keep =>
    let (p, cache) := session.cache.compile text
    let kept := match keep with
      | some name => (name, p) :: session.kept
      | none => session.kept
    (.tier p.plan.tier, { session with cache := cache, kept := kept })
  | .call kept =>
    match session.kept.lookup kept with
    | some p => session.answerValue (session.setting.call p.plan)
    | none => (.unknown, session)
  | .same a b =>
    match session.kept.lookup a, session.kept.lookup b with
    | some p, some q => (.flag (p.serial = q.serial), session)
    | _, _ => (.unknown, session)
  | .evaluate text =>
    let (p, cache) := session.cache.compile text
    { session with cache := cache }.answerValue (session.setting.call p.plan)
  | .evaluateText text =>
    let (parsed, session) := session.parse text
    session.answerValue (session.setting.evalParsed parsed session.cache.config.subjectName)
  | .evaluateAlone text =>
    let (parsed, session) := session.parse text
    match parsed.outcome with
    | .ok expr => session.answerValue (expr.eval session.setting.scope)
    | .error e => (.failure e, session)
  | .parse text =>
    let (parsed, session) := session.parse text
    match parsed.outcome with
    | .ok expr => (.tree expr, session)
    | .error e => (.failure e, session)
  | .sameTree a b =>
    let (x, session) := session.parse a
    let (y, session) := session.parse b
    (compareTrees x y, session)
  | .stats => (.stats session.cache.stats, session)
  | .size => (.size session.cache.size, session)
  | .registrySize => (.size session.cache.registry.size, session)
  | .contains text => (.flag (session.cache.contains text), session)
  | .registryContains text => (.flag (session.cache.registry.contains text), session)
  | .clear => (.done, { session with cache := session.cache.clear })
  | .clearRegistry => (.done, { session with cache := session.cache.clearRegistry })
  | .resolve name =>
    let (value, session) := session.act (session.setting.context.resolve? name)
    (.resolved value, session)
  | .declares name => (.flag (session.setting.context.contains name), session)
  | .names => (.names session.setting.context.names, session)
  | .materialized group =>
    (.known (session.setting.context.isMaterialized? session.live group), session)
  | .enter setting live => (.done, { session with setting := setting, live := live })

/-- The answers to steps, and the session behind them. -/
def run (session : Session s) : List (Step s) → List Answer × Session s
  | [] => ([], session)
  | step :: steps =>
    let (answer, session) := session.step step
    let (answers, session) := session.run steps
    (answer :: answers, session)

end Session

end Trigger
