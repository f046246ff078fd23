import Trigger.Cache.Predicate
import Trigger.Cache.Registry
import Trigger.Config.Basic

/-!
# The cache of predicates

A cache compiles a text once and keeps the predicate.  A text of a known shape is specialized if the
settings allow it, and every other text goes through the registry.  The counters tell how often a
predicate was found and how often it was made, and of which tier it was made.  `clear` forgets the
predicates, the parses and the counts; a predicate that was handed out before stays what it is.
-/

namespace Trigger

/-- The counters of a cache. -/
structure Stats where
  /-- Predicates that were found. -/
  hits : Nat := 0
  /-- Predicates that were not found. -/
  misses : Nat := 0
  /-- Predicates that were made from a shape. -/
  specialized : Nat := 0
  /-- Predicates that were made otherwise. -/
  generic : Nat := 0
deriving DecidableEq, Repr

namespace Stats

/-- The counters behind a predicate that was found. -/
def hit (c : Stats) : Stats := { c with hits := c.hits + 1 }

/-- The counters behind a predicate that was made. -/
def miss (c : Stats) : Tier → Stats
  | .specialized _ => { c with misses := c.misses + 1, specialized := c.specialized + 1 }
  | .generic => { c with misses := c.misses + 1, generic := c.generic + 1 }

end Stats

/-- A compiler with a memory. -/
structure Cache where
  config : Config
  /-- The predicates that are kept. -/
  predicates : Memo Predicate
  registry : Registry
  stats : Stats
  /-- How many predicates have been made. -/
  minted : Nat

namespace Cache

def empty (config : Config) : Cache :=
  ⟨config, .empty, .empty config.keepsFailures, {}, 0⟩

/-- What a text becomes without a shape, and the registry behind it. -/
def parsePlan (c : Cache) (text : String) : Plan × Registry :=
  let (parsed, registry) := c.registry.parse text
  match parsed.outcome with
  | .ok expr => (.tree expr c.config.subjectName, registry)
  | .error _ => (.nothing, registry)

/-- What a text becomes, and the registry behind it. -/
def plan (c : Cache) (text : String) : Plan × Registry :=
  if c.config.specializes then
    match Shape.specialize? text.toList with
    | some (form, shape) => (.shape form shape, c.registry)
    | none => c.parsePlan text
  else c.parsePlan text

/-- The predicate of a text, and the cache behind it. -/
def compile (c : Cache) (text : String) : Predicate × Cache :=
  match c.predicates.find? text with
  | some p => (p, { c with stats := c.stats.hit })
  | none =>
    let (plan, registry) := c.plan text
    let p : Predicate := ⟨c.minted, plan⟩
    (p, { c with
      predicates := c.predicates.insert text p
      registry := registry
      stats := c.stats.miss plan.tier
      minted := c.minted + 1 })

/-- The cache that has forgotten everything. -/
def clear (c : Cache) : Cache :=
  { c with predicates := .empty, registry := c.registry.clear, stats := {} }

/-- The cache that has forgotten its parses. -/
def clearRegistry (c : Cache) : Cache := { c with registry := c.registry.clear }

/-- The outcome of parsing a text, and the cache behind it. -/
def parse (c : Cache) (text : String) : Parsed × Cache :=
  let (parsed, registry) := c.registry.parse text
  (parsed, { c with registry := registry })

def contains (c : Cache) (text : String) : Bool := c.predicates.contains text

def size (c : Cache) : Nat := c.predicates.size

end Cache

end Trigger
