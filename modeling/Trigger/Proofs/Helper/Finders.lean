import Trigger.Proofs.Helper.Standard
import Trigger.Proofs.Number.Nearest

/-!
# Finders find the first best unit

A finder reads a key of each unit in turn (`Ranking.keyed`), and takes the units whose keys are
numbers as candidates.  Among these it goes from left to right, and keeps the best one so far: the
first of those with the least key (`IsFirstLeast`).  One more candidate keeps this, since numbers
are in a linear order, and so does the whole list.

The closest unit has the least squared distance.  Roots keep the order, so it has the least
distance, too, as far as the subject and the units stay where they are.
-/

namespace Trigger

variable {s α β γ : Type}

/-! ## The first candidate with the least key -/

/-- The candidate is in the list, the ones in front of it have greater keys, and the ones behind it
have no lesser ones. -/
def IsFirstLeast (best : α × Float) (candidates : List (α × Float)) : Prop :=
  ∃ before after, candidates = before ++ best :: after ∧
    (∀ candidate ∈ before, best.2 < candidate.2) ∧ ∀ candidate ∈ after, ¬ candidate.2 < best.2

/-- The keys of the candidates are numbers. -/
def HaveNumbers (candidates : List (α × Float)) : Prop :=
  ∀ candidate ∈ candidates, candidate.2.isNaN = false

namespace IsFirstLeast

variable {best candidate : α × Float} {candidates more : List (α × Float)}

theorem mem (first : IsFirstLeast best candidates) : best ∈ candidates := by
  obtain ⟨before, after, rfl, -, -⟩ := first
  simp

/-- No candidate has a lesser key. -/
theorem not_lt (first : IsFirstLeast best candidates) (numbers : HaveNumbers candidates)
    (mem : candidate ∈ candidates) : ¬ candidate.2 < best.2 := by
  have number := numbers candidate mem
  have number' := numbers best first.mem
  obtain ⟨before, after, rfl, greater, others⟩ := first
  rcases List.mem_append.mp mem with mem | mem
  · exact Number.not_lt_of_lt number' number (greater candidate mem)
  · rcases List.mem_cons.mp mem with rfl | mem
    · exact fun less => Number.not_lt_of_lt number number less less
    · exact others candidate mem

/-- One more candidate takes the place of the best one if its key is less. -/
theorem step (first : IsFirstLeast best candidates)
    (numbers : HaveNumbers (candidates ++ [candidate])) :
    IsFirstLeast (if candidate.2 < best.2 then candidate else best)
      (candidates ++ [candidate]) := by
  obtain ⟨known, number⟩ := List.forall_mem_append.mp numbers
  have number := number candidate List.mem_cons_self
  split
  · rename_i less
    refine ⟨candidates, [], rfl, fun c mem => ?_, nofun⟩
    exact Number.lt_of_lt_of_not_lt number (known best first.mem) (known c mem) less
      (first.not_lt known mem)
  · rename_i not_less
    obtain ⟨before, after, rfl, greater, others⟩ := first
    refine ⟨before, after ++ [candidate], by simp, greater, ?_⟩
    simp only [List.forall_mem_append, List.forall_mem_singleton]
    exact ⟨others, not_less⟩

/-- So the best one of all candidates is found. -/
theorem leastFrom (first : IsFirstLeast best candidates)
    (numbers : HaveNumbers (candidates ++ more)) :
    IsFirstLeast (Trigger.leastFrom best more) (candidates ++ more) := by
  induction more generalizing best candidates with
  | nil => simpa [Trigger.leastFrom] using first
  | cons candidate more ih =>
      rw [List.append_cons] at numbers ⊢
      exact ih (first.step fun c mem => numbers c (List.mem_append_left _ mem)) numbers

end IsFirstLeast

/-- What is found among candidates with numbers as keys: nothing if there are none, else the first
of those with the least key. -/
theorem least?_spec {candidates : List (α × Float)} (numbers : HaveNumbers candidates) :
    (least? candidates = none ∧ candidates = []) ∨
      ∃ best, least? candidates = some best.1 ∧ IsFirstLeast best candidates := by
  cases candidates with
  | nil => exact .inl ⟨rfl, rfl⟩
  | cons candidate more =>
      have alone : IsFirstLeast candidate [candidate] := ⟨[], [], rfl, nofun, nofun⟩
      exact .inr ⟨leastFrom candidate more, rfl, alone.leastFrom numbers⟩

/-! ## Keys of units -/

namespace Ranking

/-- The units with the keys that a ranking reads of them, in the order of the list. -/
def keyed (w : World s) (ranking : Ranking) (origin : Option Point) (units : List Value) :
    StateM s (List (Value × Option Float)) :=
  units.mapM fun unit => do return (unit, ← ranking.rawKey w origin unit)

/-- A unit with the key that has been read of it, if this is a number. -/
def qualified? (pair : Value × Option Float) : Option (Value × Float) :=
  (pair.2.filter (!·.isNaN)).map (pair.1, ·)

theorem qualified?_eq_some_iff {pair : Value × Option Float} {candidate : Value × Float} :
    qualified? pair = some candidate ↔
      pair = (candidate.1, some candidate.2) ∧ candidate.2.isNaN = false := by
  obtain ⟨unit, key⟩ := pair
  obtain ⟨unit', key'⟩ := candidate
  cases key with
  | none => simp [qualified?]
  | some key =>
      simp only [qualified?, Option.map_eq_some_iff, Option.filter_eq_some_iff, Prod.mk.injEq,
        Option.some.injEq]
      constructor
      · rintro ⟨k, ⟨rfl, number⟩, rfl, rfl⟩
        exact ⟨⟨rfl, rfl⟩, by simpa using number⟩
      · rintro ⟨⟨rfl, rfl⟩, number⟩
        exact ⟨key, ⟨rfl, by simpa using number⟩, rfl, rfl⟩

theorem mem_filterMap_qualified? {keyed : List (Value × Option Float)} {unit : Value}
    {key : Float} : (unit, key) ∈ keyed.filterMap qualified? ↔
      (unit, some key) ∈ keyed ∧ key.isNaN = false := by
  rw [List.mem_filterMap]
  constructor
  · rintro ⟨pair, mem, qualifies⟩
    obtain ⟨rfl, number⟩ := qualified?_eq_some_iff.mp qualifies
    exact ⟨mem, number⟩
  · rintro ⟨mem, number⟩
    exact ⟨_, mem, qualified?_eq_some_iff.mpr ⟨rfl, number⟩⟩

/-- The units in front of a candidate are the candidates in front of it, and others that do not
qualify. -/
theorem exists_split {keyed : List (Value × Option Float)} {unit : Value} {key : Float}
    {before after : List (Value × Float)}
    (split : keyed.filterMap qualified? = before ++ (unit, key) :: after) :
    ∃ front back, keyed = front ++ (unit, some key) :: back ∧
      front.filterMap qualified? = before := by
  obtain ⟨front, rest, rfl, rfl, behind⟩ := List.filterMap_eq_append_iff.mp split
  obtain ⟨others, pair, back, rfl, unqualified, qualifies, -⟩ :=
    List.filterMap_eq_cons_iff.mp behind
  obtain ⟨rfl, -⟩ := qualified?_eq_some_iff.mp qualifies
  refine ⟨front ++ others, back, by simp, ?_⟩
  rw [List.filterMap_append, List.filterMap_eq_nil_iff.mpr unqualified, List.append_nil]

variable (w : World s) (ranking : Ranking) (origin : Option Point)

theorem keyed_cons (unit : Value) (units : List Value) :
    ranking.keyed w origin (unit :: units) = (do
      let key ← ranking.rawKey w origin unit
      return (unit, key) :: (← ranking.keyed w origin units)) := by
  simp [keyed, List.mapM_cons]

theorem map_fst_keyed (units : List Value) (state : s) :
    (ranking.keyed w origin units state).1.map Prod.fst = units := by
  induction units generalizing state with
  | nil => rfl
  | cons unit units ih =>
      rw [keyed_cons]
      exact congrArg (unit :: ·) (ih _)

/-- A key has been read of its unit. -/
theorem exists_read_of_mem {units : List Value} {state : s} {unit : Value} {key : Option Float}
    (mem : (unit, key) ∈ (ranking.keyed w origin units state).1) :
    ∃ read, key = (ranking.rawKey w origin unit read).1 := by
  induction units generalizing state with
  | nil => cases mem
  | cons first units ih =>
      rw [keyed_cons] at mem
      rcases List.mem_cons.mp mem with same | mem
      · cases same
        exact ⟨state, rfl⟩
      · exact ih mem

/-- A key is read of each unit. -/
theorem exists_key_of_mem {units : List Value} {unit : Value} (mem : unit ∈ units) (state : s) :
    ∃ read, (unit, (ranking.rawKey w origin unit read).1) ∈
      (ranking.keyed w origin units state).1 := by
  induction units generalizing state with
  | nil => cases mem
  | cons first units ih =>
      rw [keyed_cons]
      rcases List.mem_cons.mp mem with rfl | mem
      · exact ⟨state, List.mem_cons_self⟩
      · obtain ⟨read, known⟩ := ih mem (ranking.rawKey w origin first state).2
        exact ⟨read, List.mem_cons_of_mem _ known⟩

/-- Null has no key. -/
theorem rawKey_null (state : s) : (ranking.rawKey w origin .null state).1 = none := by
  cases ranking with
  | closest => cases origin <;> rfl
  | weakest | healthiest => rfl

/-- The candidates are the units whose keys are numbers. -/
theorem candidates_eq (units : List Value) :
    w.candidates ranking origin units = (do
      return (← ranking.keyed w origin units).filterMap qualified?) := by
  let filtered (pair : Value × Option Float) := (pair.1, pair.2.filter (!·.isNaN))
  have keys : (units.mapM fun unit => do return (unit, ← ranking.key w origin unit)) = (do
      return (← ranking.keyed w origin units).map filtered) := by
    induction units with
    | nil => rfl
    | cons unit units ih =>
        rw [List.mapM_cons, ih, keyed_cons]
        rfl
  rw [World.candidates, keys]
  funext state
  exact congrArg (·, _) List.filterMap_map

end Ranking

/-! ## The best unit -/

/-- What a finder answers for the keys of units: null if none of them is a number, else a unit with
a number as its key, such that no key is less and all numbers in front are greater. -/
structure IsFirstBest (keyed : List (Value × Option Float)) (found : Value) : Prop where
  null_iff : found = .null ↔ ∀ unit key, (unit, some key) ∈ keyed → key.isNaN = true
  best : found ≠ .null → ∃ before key after, keyed = before ++ (found, some key) :: after ∧
    key.isNaN = false ∧
    (∀ unit other, (unit, some other) ∈ keyed → other.isNaN = false → ¬ other < key) ∧
    ∀ unit other, (unit, some other) ∈ before → other.isNaN = false → key < other

theorem World.find_eq (w : World s) (ranking : Ranking) (origin : Option Point)
    (units : List Value) (state : s) :
    (w.find ranking origin units state).1 =
      (least? ((ranking.keyed w origin units state).1.filterMap
        Ranking.qualified?)).getD .null := by
  rw [World.find, Ranking.candidates_eq]
  rfl

theorem World.find_isFirstBest (w : World s) (ranking : Ranking) (origin : Option Point)
    (units : List Value) (state : s) :
    IsFirstBest (ranking.keyed w origin units state).1 (w.find ranking origin units state).1 := by
  rw [w.find_eq]
  have null_of_mem {key : Option Float}
      (mem : (Value.null, key) ∈ (ranking.keyed w origin units state).1) : key = none := by
    obtain ⟨read, rfl⟩ := ranking.exists_read_of_mem w origin mem
    exact ranking.rawKey_null w origin read
  generalize (ranking.keyed w origin units state).1 = keyed at null_of_mem ⊢
  have numbers : HaveNumbers (keyed.filterMap Ranking.qualified?) :=
    fun _ mem => (Ranking.mem_filterMap_qualified?.mp mem).2
  rcases least?_spec numbers with ⟨none, empty⟩ | ⟨⟨found, key⟩, some, first⟩
  · rw [none]
    refine ⟨⟨fun _ unit key mem => ?_, fun _ => rfl⟩, fun present => absurd rfl present⟩
    by_contra number
    have qualifies : (unit, key) ∈ keyed.filterMap Ranking.qualified? :=
      Ranking.mem_filterMap_qualified?.mpr ⟨mem, by simpa using number⟩
    rw [empty] at qualifies
    cases qualifies
  · rw [some]
    show IsFirstBest keyed found
    obtain ⟨mem, number⟩ := Ranking.mem_filterMap_qualified?.mp first.mem
    refine ⟨⟨?_, fun none => ?_⟩, fun _ => ?_⟩
    · rintro rfl
      cases null_of_mem mem
    · rw [none found key mem] at number
      cases number
    · have least (unit : Value) (other : Float)
          (mem : (unit, other) ∈ keyed.filterMap Ranking.qualified?) : ¬ other < key := by
        simpa only using first.not_lt numbers mem
      obtain ⟨before, after, split, greater, -⟩ := first
      obtain ⟨front, back, rfl, rfl⟩ := Ranking.exists_split split
      refine ⟨front, key, back, rfl, number, fun unit other mem number => ?_,
        fun unit other mem number => ?_⟩
      · exact least unit other (Ranking.mem_filterMap_qualified?.mpr ⟨mem, number⟩)
      · exact greater (unit, other) (Ranking.mem_filterMap_qualified?.mpr ⟨mem, number⟩)

/-! ## The closest enemy -/

/-- The key of a unit is its squared distance from the origin. -/
theorem Ranking.rawKey_closest (w : World s) (origin : Option Point) (unit : Value) (state : s) :
    (closest.rawKey w origin unit state).1 = squareBetween origin (w.position unit state).1 := by
  cases origin <;> rfl

/-- Where units stay, and one of them has a squared distance that is a number, the closest one has,
and it is no greater. -/
theorem World.exists_closest (w : World s) {units : List Value}
    (stay : ∀ unit ∈ units, w.Stays unit) (origin : Option Point) (state : s) {unit : Value}
    (mem : unit ∈ units) {later : s} {d : Float}
    (measured : squareBetween origin (w.position unit later).1 = some d)
    (number : d.isNaN = false) :
    ∃ least, (∀ later, squareBetween origin
        (w.position (w.find .closest origin units state).1 later).1 = some least) ∧
      least.isNaN = false ∧ ¬ d < least := by
  have first := w.find_isFirstBest .closest origin units state
  obtain ⟨read, key⟩ := Ranking.closest.exists_key_of_mem w origin mem state
  rw [Ranking.rawKey_closest, stay unit mem read later, measured] at key
  have present : (w.find .closest origin units state).1 ≠ .null := by
    intro none
    have bad := first.null_iff.mp none unit d key
    rw [number] at bad
    cases bad
  obtain ⟨before, least, after, split, number', not_less, -⟩ := first.best present
  have known : ((w.find .closest origin units state).1, some least) ∈
      (Ranking.closest.keyed w origin units state).1 := by
    rw [split]
    simp
  have mem' : (w.find .closest origin units state).1 ∈ units := by
    have first := List.mem_map_of_mem (f := Prod.fst) known
    rwa [Ranking.closest.map_fst_keyed w origin units state] at first
  obtain ⟨read', found⟩ := Ranking.closest.exists_read_of_mem w origin known
  refine ⟨least, fun later => ?_, number', not_less unit d key number⟩
  rw [stay _ mem' later read', ← Ranking.rawKey_closest, found]

/-- The square of a distance is not below zero, if it is a number. -/
theorem nonneg_of_squareBetween {a b : Option Point} {d : Float}
    (measured : squareBetween a b = some d) (number : d.isNaN = false) : 0 ≤ d := by
  refine (measured_of_squareBetween measured).resolve_right ?_
  rw [number]
  nofun

/-- A finder answers null exactly if no unit has a number as its key.  Else it answers a unit such
that no unit has a lesser key, and all units in front that have a number as their keys have greater
ones.

So in the standard context, where the subject and the enemies stay, no enemy is nearer than the
closest one: where `distance(unit.pos)` is a number for an enemy, `distance(closest.enemy().pos)` is
a number that is no greater. -/
theorem World.finders_find_first_best (w : World s) :
    (∀ (ranking : Ranking) (origin : Option Point) (units : List Value) (state : s),
      let keyed := (ranking.keyed w origin units state).1
      keyed.map Prod.fst = units ∧ IsFirstBest keyed (w.find ranking origin units state).1) ∧
    (∀ (subject : Value) (roster : Roster) (built : s),
      (∀ unit ∈ subject :: roster.enemies, w.Stays unit) →
      let c := (Context.standard w subject roster built).1
      ∀ live live', c.Faithful live' → ∀ enemy ∈ roster.enemies, ∀ d,
        (Expr.unitDistance.eval ((c.scope w).bind Expr.measured enemy) live).1 = .number d →
        d.isNaN = false →
        ∃ least, ((Expr.enemyDistance false).eval
            ((c.scope w).bind Config.shapeSubject subject) live').1 = .number least ∧
          least.isNaN = false ∧ ¬ d < least) := by
  refine ⟨fun ranking origin units state => ?_, fun subject roster built stay => ?_⟩
  · exact ⟨ranking.map_fst_keyed w origin units state,
      w.find_isFirstBest ranking origin units state⟩
  · intro c live live' faithful enemy mem d measured number
    obtain ⟨stays, stay⟩ := List.forall_mem_cons.mp stay
    obtain ⟨other, later, value⟩ := Context.standard_unitDistance w subject roster built enemy live
    obtain ⟨other', state, later', value'⟩ :=
      Context.standard_enemyDistance w subject roster built faithful
    rw [value, stays other built] at measured
    rw [value', stays other' built]
    cases square : squareBetween (w.position subject built).1 (w.position enemy later).1 with
    | none =>
        rw [square] at measured
        cases measured
    | some squared =>
        rw [square] at measured
        obtain rfl : squared.sqrt = d := Value.number.inj measured
        have number := Number.isNaN_of_isNaN_sqrt number
        obtain ⟨least, found, number', not_less⟩ := w.exists_closest stay _ state mem square number
        have nonneg := nonneg_of_squareBetween square number
        have nonneg' := nonneg_of_squareBetween (found later') number'
        rw [found later']
        exact ⟨least.sqrt, rfl, Number.isNaN_sqrt nonneg',
          Number.not_sqrt_lt_sqrt nonneg' nonneg not_less⟩

/-- Two enemies at the same distance, behind one that has no position. -/
def threeEnemies : Roster :=
  ⟨[], [.null, .ofEntries [("pos", .point (3, 0))], .ofEntries [("pos", .point (0, 3))]]⟩

theorem World.finders_find_first_best_three :
    let subject := Value.ofEntries [("pos", .point (0, 0))]
    let c := (Context.standard silent subject threeEnemies ()).1
    ∃ least, ((Expr.enemyDistance false).eval ((c.scope silent).bind Config.shapeSubject subject)
        (.fresh ())).1 = .number least ∧
      least.isNaN = false ∧ ¬ (squaredDistance (0, 0) (0, 3)).sqrt < least := by
  intro subject c
  refine (finders_find_first_best silent).2 subject threeEnemies () (fun _ _ _ _ => rfl)
    (.fresh ()) (.fresh ()) (c.faithful_fresh ()) (.ofEntries [("pos", .point (0, 3))])
    (by simp [threeEnemies]) _ rfl ?_
  decide +kernel

end Trigger
