import Mathlib.Data.List.Forall2
import Mathlib.Data.List.Nodup
import Mathlib.Data.List.Perm.Subperm
import Trigger.Proofs.Number.Order
import Trigger.Value.Equality

/-!
# Laws of the equalities

Structural equality is symmetric and transitive, and so is `==` of numbers, from which it inherits
that it is not reflexive.  The equality of the language is symmetric too, and it holds wherever the
structural one does.  It is not transitive: null equals absent, and `"1"` and `"1.0"` both equal
one.

Arrays and objects are equal part by part, so each law is shown once for values without parts and
goes through arrays and objects by induction.  There the keys of two equal objects are the same, in
the same order.  This is no more than to find an equal value under each key, given as many of them
(`equalByKeys_eq`): the keys of an object are sorted, and distinct keys that are all found among as
many others are all of these.
-/

namespace Trigger

/-! ## Lists of parts -/

section
variable {α β : Type} {R S : α → α → Prop} {as bs cs : List α}

theorem forall₂_symm_of_mem (symm : ∀ a ∈ as, ∀ {b}, R a b → R b a) (pairs : List.Forall₂ R as bs) :
    List.Forall₂ R bs as := by
  induction pairs with
  | nil => exact .nil
  | cons first _ ih =>
      obtain ⟨here, later⟩ := List.forall_mem_cons.mp symm
      exact .cons (here first) (ih later)

theorem forall₂_trans_of_mem (trans : ∀ a ∈ as, ∀ {b c}, R a b → R b c → R a c)
    (pairs : List.Forall₂ R as bs) (pairs' : List.Forall₂ R bs cs) : List.Forall₂ R as cs := by
  induction pairs generalizing cs with
  | nil => exact pairs'
  | cons first _ ih =>
      obtain ⟨here, later⟩ := List.forall_mem_cons.mp trans
      cases pairs' with
      | cons first' rest' => exact .cons (here first first') (ih later rest')

theorem forall₂_congr_of_mem (same : ∀ a ∈ as, ∀ b ∈ bs, (R a b ↔ S a b)) :
    List.Forall₂ R as bs ↔ List.Forall₂ S as bs := by
  induction as generalizing bs with
  | nil => simp
  | cons a as ih =>
      cases bs with
      | nil => simp
      | cons b bs =>
          obtain ⟨here, later⟩ := List.forall_mem_cons.mp same
          rw [List.forall₂_cons, List.forall₂_cons, here b List.mem_cons_self]
          exact and_congr_right'
            (ih fun a mem b mem' => later a mem b (List.mem_cons_of_mem _ mem'))

theorem forall₂_imp_of_mem (imp : ∀ a ∈ as, ∀ {b}, R a b → S a b) (pairs : List.Forall₂ R as bs) :
    List.Forall₂ S as bs := by
  induction pairs with
  | nil => exact .nil
  | cons first _ ih =>
      obtain ⟨here, later⟩ := List.forall_mem_cons.mp imp
      exact .cons (here first) (ih later)

end

namespace Entries

variable {α β : Type} {as : Entries α} {bs : Entries β}

/-- Two entries have one key, and their values are related. -/
def Beside (R : α → β → Prop) (x : String × α) (y : String × β) : Prop := x.1 = y.1 ∧ R x.2 y.2

theorem mem_of_mem_insert {key : String} {value : α} {x : String × α}
    (mem : x ∈ insert key value as) : x = (key, value) ∨ x ∈ as := by
  induction as with
  | nil => exact .inl (List.mem_singleton.mp mem)
  | cons entry as ih =>
      rw [insert] at mem
      split at mem
      · exact List.mem_cons.mp mem
      · split at mem
        · exact (List.mem_cons.mp mem).imp_right (List.mem_cons_of_mem entry)
        · rcases List.mem_cons.mp mem with rfl | mem
          · exact .inr List.mem_cons_self
          · exact (ih mem).imp_right (List.mem_cons_of_mem entry)

/-- What is kept of a list stands in it. -/
theorem mem_of_mem_ofList {list : List (String × α)} {x : String × α} (mem : x ∈ ofList list) :
    x ∈ list := by
  suffices ∀ entries : Entries α,
      x ∈ list.foldl (fun entries entry => insert entry.1 entry.2 entries) entries →
        x ∈ entries ∨ x ∈ list from (this [] mem).resolve_left List.not_mem_nil
  clear mem
  induction list with
  | nil => exact fun _ => .inl
  | cons entry list ih =>
      intro entries mem
      rcases ih _ mem with mem | mem
      · rcases mem_of_mem_insert mem with rfl | mem
        · exact .inr List.mem_cons_self
        · exact .inl mem
      · exact .inr (List.mem_cons_of_mem entry mem)

theorem mem_keys_of_find? {key : String} {value : β} (found : bs.find? key = some value) :
    key ∈ bs.keys := by
  induction bs with
  | nil => cases found
  | cons entry more ih =>
      obtain ⟨k, v⟩ := entry
      rw [find?] at found
      split at found
      · rename_i here
        exact List.mem_cons.mpr (.inl here.symm)
      · exact List.mem_cons_of_mem k (ih found)

/-- Behind the first key another one is looked for. -/
theorem find?_cons_of_lt {k key : String} (less : k < key) (v : β) :
    find? key ((k, v) :: bs) = bs.find? key := by
  rw [find?, if_neg]
  rintro rfl
  exact String.lt_irrefl k less

/-- Sorted keys that are all among as many sorted keys are all of these. -/
theorem keys_eq_of_subset (sorted : as.Sorted) (sorted' : bs.Sorted) (subset : as.keys ⊆ bs.keys)
    (many : as.length = bs.length) : as.keys = bs.keys := by
  have among : as.keys.Subperm bs.keys := List.subperm_of_subset (List.Pairwise.nodup sorted) subset
  have perm : as.keys.Perm bs.keys := among.perm_of_length_le (by simp [keys, many])
  exact perm.eq_of_pairwise (fun _ _ _ _ less greater => absurd greater (String.lt_asymm less))
    sorted sorted'

/-- Sorted entries stand beside each other exactly if there are as many and a related value is found
under each key. -/
theorem forall₂_beside_iff {R : α → β → Prop} (sorted : as.Sorted) (sorted' : bs.Sorted) :
    List.Forall₂ (Beside R) as bs ↔
      as.length = bs.length ∧ ∀ x ∈ as, ∃ w, bs.find? x.1 = some w ∧ R x.2 w := by
  constructor
  · intro pairs
    refine ⟨pairs.length_eq, ?_⟩
    induction pairs with
    | nil => nofun
    | @cons x y as bs first _ ih =>
        obtain ⟨k, a⟩ := x
        obtain ⟨l, b⟩ := y
        obtain ⟨rfl, related⟩ : k = l ∧ R a b := first
        obtain ⟨above, sorted⟩ := sorted_cons.mp sorted
        refine List.forall_mem_cons.mpr ⟨⟨b, if_pos rfl, related⟩, fun x mem => ?_⟩
        rw [find?_cons_of_lt (above x.1 (List.mem_map_of_mem mem))]
        exact ih sorted (sorted_cons.mp sorted').2 x mem
  · rintro ⟨many, found⟩
    have subset : as.keys ⊆ bs.keys := by
      intro key mem
      obtain ⟨x, inside, rfl⟩ := List.mem_map.mp mem
      obtain ⟨w, here, -⟩ := found x inside
      exact mem_keys_of_find? here
    have same := keys_eq_of_subset sorted sorted' subset many
    clear many subset
    induction as generalizing bs with
    | nil =>
        rw [List.map_eq_nil_iff.mp same.symm]
        exact .nil
    | cons x as ih =>
        cases bs with
        | nil => cases same
        | cons y bs =>
            obtain ⟨k, a⟩ := x
            obtain ⟨l, b⟩ := y
            obtain ⟨rfl, rest⟩ : k = l ∧ keys as = keys bs := List.cons.inj same
            obtain ⟨above, sorted⟩ := sorted_cons.mp sorted
            obtain ⟨⟨w, here, related⟩, later⟩ := List.forall_mem_cons.mp found
            obtain rfl : b = w := Option.some.inj ((if_pos rfl).symm.trans here)
            refine .cons ⟨rfl, related⟩
              (ih sorted (sorted_cons.mp sorted').2 (fun x mem => ?_) rest)
            rw [← find?_cons_of_lt (above x.1 (List.mem_map_of_mem mem)) b]
            exact later x mem

end Entries

namespace Value

/-! ## Values without parts -/

/-- Whether a value has no parts that are compared. -/
def isAtom : Value → Bool
  | array _ | object _ => false
  | _ => true

/-- What holds of values without parts, and of arrays and objects if it holds of their parts, holds
of all values. -/
theorem induction_on_parts {P : Value → Prop} (atom : ∀ v : Value, v.isAtom = true → P v)
    (array : ∀ items, (∀ v ∈ items, P v) → P (.array items))
    (object : ∀ entries, (∀ entry ∈ entries, P entry.2) → P (.object entries)) : ∀ v : Value, P v
  | .array items => array items fun v _ => induction_on_parts atom array object v
  | .object entries => object entries fun entry _ => induction_on_parts atom array object entry.2
  | .number _ | .string _ | .boolean _ | .null | .absent | .function _ | .host _ => atom _ rfl
termination_by v => sizeOf v
decreasing_by
  · have smaller := List.sizeOf_lt_of_mem ‹v ∈ items›
    simp only [Value.array.sizeOf_spec]
    omega
  · have smaller := List.sizeOf_lt_of_mem ‹entry ∈ entries›
    obtain ⟨key, v⟩ := entry
    simp only [Prod.mk.sizeOf_spec, Value.object.sizeOf_spec] at smaller ⊢
    omega

/-- Two values without parts that are structurally equal. -/
inductive SameAtom : Value → Value → Prop
  | number {x y : Float} : (x == y) = true → SameAtom (.number x) (.number y)
  | string (s : String) : SameAtom (.string s) (.string s)
  | boolean (p : Bool) : SameAtom (.boolean p) (.boolean p)
  | null : SameAtom .null .null
  | absent : SameAtom .absent .absent
  | function {f g : Callable} : f.identity = g.identity → SameAtom (.function f) (.function g)
  | host (h : HostObject) : SameAtom (.host h) (.host h)

theorem same_iff_sameAtom {a b : Value} (atom : a.isAtom = true) :
    a.same b = true ↔ SameAtom a b := by
  constructor
  · intro same
    cases a with
    | array | object => cases atom
    | number x => cases b with
      | number y => exact .number same
      | _ => cases same
    | string s => cases b with
      | string t =>
          obtain rfl : s = t := of_decide_eq_true same
          exact .string s
      | _ => cases same
    | boolean p => cases b with
      | boolean q =>
          obtain rfl : p = q := of_decide_eq_true same
          exact .boolean p
      | _ => cases same
    | null => cases b with
      | null => exact .null
      | _ => cases same
    | absent => cases b with
      | absent => exact .absent
      | _ => cases same
    | function f => cases b with
      | function g => exact .function (of_decide_eq_true same)
      | _ => cases same
    | host h => cases b with
      | host i =>
          obtain rfl : h = i := of_decide_eq_true same
          exact .host h
      | _ => cases same
  · intro same
    cases same with
    | number same => exact same
    | function same => exact decide_eq_true same
    | _ => simp [Value.same]

namespace SameAtom

variable {a b c : Value}

theorem isAtom (same : SameAtom a b) : a.isAtom = true ∧ b.isAtom = true := by
  cases same <;> exact ⟨rfl, rfl⟩

theorem symm (same : SameAtom a b) : SameAtom b a := by
  cases same with
  | number same => exact .number ((Number.beq_comm _ _).trans same)
  | function same => exact .function same.symm
  | string s => exact .string s
  | boolean p => exact .boolean p
  | null => exact .null
  | absent => exact .absent
  | host h => exact .host h

theorem trans (same : SameAtom a b) (same' : SameAtom b c) : SameAtom a c := by
  cases same with
  | number same => cases same' with
    | number same' => exact .number (Number.beq_trans same same')
  | function same => cases same' with
    | function same' => exact .function (same.trans same')
  | _ => exact same'

theorem looseEquals (same : SameAtom a b) : a.looseEquals b = true := by
  cases same with
  | number same => exact same
  | function same => exact decide_eq_true same
  | _ => simp [Value.looseEquals, isNullish]

end SameAtom

/-- Whether two values of different kinds are equal for the language. -/
def coerces (a b : Value) : Bool :=
  (a.isNullish && b.isNullish) || (a.isScalar && b.isScalar && a.toNumber == b.toNumber)

theorem coerces_comm (a b : Value) : a.coerces b = b.coerces a := by
  simp only [coerces, Bool.and_comm, Number.beq_comm a.toNumber]

theorem looseEquals_comm_of_isAtom {a : Value} (atom : a.isAtom = true) (b : Value) :
    a.looseEquals b = b.looseEquals a := by
  have coerced := coerces_comm a b
  rw [coerces, coerces] at coerced
  cases a with
  | array | object => cases atom
  | number x => cases b with
    | number y => exact Number.beq_comm x y
    | _ => simpa only [looseEquals] using coerced
  | string s => cases b with
    | string t => simp only [looseEquals, eq_comm]
    | _ => simpa only [looseEquals] using coerced
  | boolean p => cases b with
    | boolean q => simp only [looseEquals, eq_comm]
    | _ => simpa only [looseEquals] using coerced
  | function f => cases b with
    | function g => simp only [looseEquals, eq_comm]
    | _ => simpa only [looseEquals] using coerced
  | host h => cases b with
    | host i => simp only [looseEquals, eq_comm]
    | _ => simpa only [looseEquals] using coerced
  | null | absent => cases b <;> simp only [looseEquals, coerced]

/-! ## Arrays and objects -/

section
variable {as bs : List Value}

theorem sameAll_iff : sameAll as bs = true ↔ List.Forall₂ (·.same · = true) as bs := by
  induction as generalizing bs with
  | nil => cases bs <;> simp [sameAll]
  | cons a as ih => cases bs <;> simp [sameAll, ih]

theorem looseEqualsAll_iff :
    looseEqualsAll as bs = true ↔ List.Forall₂ (·.looseEquals · = true) as bs := by
  induction as generalizing bs with
  | nil => cases bs <;> simp [looseEqualsAll]
  | cons a as ih => cases bs <;> simp [looseEqualsAll, ih]

end

section
variable {as bs : Entries Value}

theorem sameEntries_iff :
    sameEntries as bs = true ↔ List.Forall₂ (Entries.Beside (·.same · = true)) as bs := by
  induction as generalizing bs with
  | nil => cases bs <;> simp [sameEntries]
  | cons a as ih => cases bs <;> simp [sameEntries, Entries.Beside, ih]

theorem looseEqualsEntries_iff :
    looseEqualsEntries as bs = true ↔
      List.Forall₂ (Entries.Beside (·.looseEquals · = true)) as bs := by
  induction as generalizing bs with
  | nil => cases bs <;> simp [looseEqualsEntries]
  | cons a as ih => cases bs <;> simp [looseEqualsEntries, Entries.Beside, ih]

end

/-! ## Objects by their keys -/

mutual

/-- The entries of each object inside are in the order of their keys. -/
def Tidy : Value → Prop
  | array items => TidyAll items
  | object entries => Entries.Sorted entries ∧ TidyEntries entries
  | _ => True
termination_by structural x => x

def TidyAll : List Value → Prop
  | [] => True
  | v :: items => v.Tidy ∧ TidyAll items
termination_by structural x => x

/-- The values of the entries are tidy. -/
def TidyEntries : List (String × Value) → Prop
  | [] => True
  | (_, v) :: entries => v.Tidy ∧ TidyEntries entries
termination_by structural x => x

end

theorem tidyAll_iff {items : List Value} : TidyAll items ↔ ∀ v ∈ items, v.Tidy := by
  induction items with
  | nil => simp [TidyAll]
  | cons v items ih => simp [TidyAll, ih]

theorem tidyEntries_iff {entries : Entries Value} :
    TidyEntries entries ↔ ∀ entry ∈ entries, entry.2.Tidy := by
  induction entries with
  | nil => simp [TidyEntries]
  | cons entry entries ih => simp [TidyEntries, ih]

/-- An object that is made of tidy values is tidy. -/
theorem tidy_ofEntries {list : List (String × Value)} (tidy : ∀ entry ∈ list, entry.2.Tidy) :
    (ofEntries list).Tidy :=
  ⟨Entries.sorted_ofList list,
    tidyEntries_iff.mpr fun entry mem => tidy entry (Entries.mem_of_mem_ofList mem)⟩

mutual

/-- Whether two values are equal where objects are if they have as many entries and under each key
of the first one the second one has an equal value.  Values without parts are compared as given. -/
def equalByKeys (eq : Value → Value → Bool) : Value → Value → Bool
  | array as, array bs => as.length == bs.length && itemsEqual eq as bs
  | object as, object bs => as.length == bs.length && entriesFound eq as bs
  | a, b => eq a b
termination_by structural x => x

/-- Whether the items are equal, as far as there are some in both lists. -/
def itemsEqual (eq : Value → Value → Bool) : List Value → List Value → Bool
  | a :: as, b :: bs => equalByKeys eq a b && itemsEqual eq as bs
  | _, _ => true
termination_by structural x => x

/-- Whether an equal value is found for each entry. -/
def entriesFound (eq : Value → Value → Bool) :
    List (String × Value) → List (String × Value) → Bool
  | [], _ => true
  | (key, a) :: as, bs =>
    (match Entries.find? key bs with
      | some b => equalByKeys eq a b
      | none => false) && entriesFound eq as bs
termination_by structural x => x

end

section
variable {eq : Value → Value → Bool}

theorem itemsEqual_iff {as bs : List Value} :
    (as.length == bs.length && itemsEqual eq as bs) = true ↔
      List.Forall₂ (equalByKeys eq · · = true) as bs := by
  induction as generalizing bs with
  | nil => cases bs <;> simp [itemsEqual]
  | cons a as ih =>
      cases bs with
      | nil => simp
      | cons b bs =>
          rw [List.forall₂_cons, ← ih]
          simp [itemsEqual, and_left_comm]

theorem entriesFound_iff {as bs : Entries Value} :
    entriesFound eq as bs = true ↔
      ∀ x ∈ as, ∃ w, bs.find? x.1 = some w ∧ equalByKeys eq x.2 w = true := by
  induction as with
  | nil => simp [entriesFound]
  | cons x as ih =>
      obtain ⟨key, a⟩ := x
      rw [entriesFound, Bool.and_eq_true, ih, List.forall_mem_cons]
      cases Entries.find? key bs <;> simp

/-- Arrays and objects are equal part by part. -/
structure Partwise (eq : Value → Value → Bool) : Prop where
  array {as bs : List Value} :
    eq (array as) (array bs) = true ↔ List.Forall₂ (eq · · = true) as bs
  object {as bs : Entries Value} :
    eq (object as) (object bs) = true ↔ List.Forall₂ (Entries.Beside (eq · · = true)) as bs

theorem partwise_same : Partwise same := ⟨sameAll_iff, sameEntries_iff⟩

theorem partwise_looseEquals : Partwise looseEquals := ⟨looseEqualsAll_iff, looseEqualsEntries_iff⟩

/-- Tidy values that are compared part by part are compared by their keys. -/
theorem equalByKeys_eq (partwise : Partwise eq) {a b : Value} (tidy : a.Tidy) (tidy' : b.Tidy) :
    equalByKeys eq a b = eq a b := by
  induction a using induction_on_parts generalizing b with
  | atom a atom => cases a <;> first | rfl | cases atom
  | array as ih =>
      cases b with
      | array bs =>
          have parts : ∀ a ∈ as, ∀ b ∈ bs, (equalByKeys eq a b = true ↔ eq a b = true) :=
            fun a mem b mem' => by
              rw [ih a mem (tidyAll_iff.mp tidy a mem) (tidyAll_iff.mp tidy' b mem')]
          rw [Bool.eq_iff_iff, equalByKeys, itemsEqual_iff, partwise.array]
          exact forall₂_congr_of_mem parts
      | _ => rfl
  | object as ih =>
      cases b with
      | object bs =>
          have parts : ∀ x ∈ as, ∀ y ∈ bs,
              (Entries.Beside (equalByKeys eq · · = true) x y ↔
                Entries.Beside (eq · · = true) x y) := fun x mem y mem' => by
            rw [Entries.Beside, Entries.Beside,
              ih x mem (tidyEntries_iff.mp tidy.2 x mem) (tidyEntries_iff.mp tidy'.2 y mem')]
          rw [Bool.eq_iff_iff, equalByKeys, Bool.and_eq_true, beq_iff_eq, entriesFound_iff,
            partwise.object, ← forall₂_congr_of_mem parts]
          exact (Entries.forall₂_beside_iff (R := (equalByKeys eq · · = true)) tidy.1 tidy'.1).symm
      | _ => rfl

end

/-! ## The laws -/

theorem same_array {as : List Value} {b : Value} (same : (array as).same b = true) :
    ∃ bs, b = array bs ∧ List.Forall₂ (·.same · = true) as bs := by
  cases b with
  | array bs => exact ⟨bs, rfl, sameAll_iff.mp same⟩
  | _ => cases same

theorem same_object {as : Entries Value} {b : Value} (same : (object as).same b = true) :
    ∃ bs, b = object bs ∧ List.Forall₂ (Entries.Beside (·.same · = true)) as bs := by
  cases b with
  | object bs => exact ⟨bs, rfl, sameEntries_iff.mp same⟩
  | _ => cases same

theorem looseEquals_array {as : List Value} {b : Value} (equal : (array as).looseEquals b = true) :
    ∃ bs, b = array bs ∧ List.Forall₂ (·.looseEquals · = true) as bs := by
  cases b with
  | array bs => exact ⟨bs, rfl, looseEqualsAll_iff.mp equal⟩
  | _ => cases equal

theorem looseEquals_object {as : Entries Value} {b : Value}
    (equal : (object as).looseEquals b = true) :
    ∃ bs, b = object bs ∧ List.Forall₂ (Entries.Beside (·.looseEquals · = true)) as bs := by
  cases b with
  | object bs => exact ⟨bs, rfl, looseEqualsEntries_iff.mp equal⟩
  | _ => cases equal

theorem same_symm {a b : Value} (same : a.same b = true) : b.same a = true := by
  induction a using induction_on_parts generalizing b with
  | atom a atom =>
      have pair := (same_iff_sameAtom atom).mp same
      exact (same_iff_sameAtom pair.isAtom.2).mpr pair.symm
  | array as ih =>
      obtain ⟨bs, rfl, pairs⟩ := same_array same
      exact sameAll_iff.mpr (forall₂_symm_of_mem ih pairs)
  | object as ih =>
      obtain ⟨bs, rfl, pairs⟩ := same_object same
      refine sameEntries_iff.mpr (forall₂_symm_of_mem (fun x mem _ beside => ?_) pairs)
      exact ⟨beside.1.symm, ih x mem beside.2⟩

theorem same_trans {a b c : Value} (same : a.same b = true) (same' : b.same c = true) :
    a.same c = true := by
  induction a using induction_on_parts generalizing b c with
  | atom a atom =>
      have pair := (same_iff_sameAtom atom).mp same
      have pair' := (same_iff_sameAtom pair.isAtom.2).mp same'
      exact (same_iff_sameAtom atom).mpr (pair.trans pair')
  | array as ih =>
      obtain ⟨bs, rfl, pairs⟩ := same_array same
      obtain ⟨cs, rfl, pairs'⟩ := same_array same'
      exact sameAll_iff.mpr (forall₂_trans_of_mem ih pairs pairs')
  | object as ih =>
      obtain ⟨bs, rfl, pairs⟩ := same_object same
      obtain ⟨cs, rfl, pairs'⟩ := same_object same'
      refine sameEntries_iff.mpr
        (forall₂_trans_of_mem (fun x mem _ _ beside beside' => ?_) pairs pairs')
      exact ⟨beside.1.trans beside'.1, ih x mem beside.2 beside'.2⟩

theorem looseEquals_symm {a b : Value} (equal : a.looseEquals b = true) :
    b.looseEquals a = true := by
  induction a using induction_on_parts generalizing b with
  | atom a atom => rwa [← looseEquals_comm_of_isAtom atom]
  | array as ih =>
      obtain ⟨bs, rfl, pairs⟩ := looseEquals_array equal
      exact looseEqualsAll_iff.mpr (forall₂_symm_of_mem ih pairs)
  | object as ih =>
      obtain ⟨bs, rfl, pairs⟩ := looseEquals_object equal
      refine looseEqualsEntries_iff.mpr (forall₂_symm_of_mem (fun x mem _ beside => ?_) pairs)
      exact ⟨beside.1.symm, ih x mem beside.2⟩

theorem looseEquals_of_same {a b : Value} (same : a.same b = true) : a.looseEquals b = true := by
  induction a using induction_on_parts generalizing b with
  | atom a atom => exact ((same_iff_sameAtom atom).mp same).looseEquals
  | array as ih =>
      obtain ⟨bs, rfl, pairs⟩ := same_array same
      exact looseEqualsAll_iff.mpr (forall₂_imp_of_mem ih pairs)
  | object as ih =>
      obtain ⟨bs, rfl, pairs⟩ := same_object same
      refine looseEqualsEntries_iff.mpr (forall₂_imp_of_mem (fun x mem _ beside => ?_) pairs)
      exact ⟨beside.1, ih x mem beside.2⟩

/-- The equality of the language is symmetric, structural equality is symmetric and transitive, and
values that are structurally equal are equal for the language.  Both equalities compare the objects
inside tidy values by their keys. -/
theorem equality_laws (a b c : Value) :
    a.looseEquals b = b.looseEquals a ∧ a.same b = b.same a ∧
      (a.same b = true → b.same c = true → a.same c = true) ∧
      (a.same b = true → a.looseEquals b = true) ∧
      (a.Tidy → b.Tidy →
        equalByKeys same a b = a.same b ∧ equalByKeys looseEquals a b = a.looseEquals b) :=
  ⟨Bool.eq_iff_iff.mpr ⟨looseEquals_symm, looseEquals_symm⟩,
    Bool.eq_iff_iff.mpr ⟨same_symm, same_symm⟩, same_trans, looseEquals_of_same,
    fun tidy tidy' =>
      ⟨equalByKeys_eq partwise_same tidy tidy', equalByKeys_eq partwise_looseEquals tidy tidy'⟩⟩

/-- An object with a zero in an array. -/
def zeroInside (sign : Float.Model.UnpackedFloat.Sign) : Value :=
  ofEntries [("b", array [number (Number.zero sign), null]), ("a", string "0")]

theorem tidy_zeroInside (sign : Float.Model.UnpackedFloat.Sign) : (zeroInside sign).Tidy :=
  tidy_ofEntries (by simp [Tidy, TidyAll])

theorem equality_laws_zeros :
    (zeroInside .positive).same (zeroInside .negative) = true ∧
      (zeroInside .negative).same (zeroInside .positive) = true ∧
      (zeroInside .positive).same (zeroInside .positive) = true ∧
      (zeroInside .positive).looseEquals (zeroInside .negative) = true ∧
      equalByKeys same (zeroInside .positive) (zeroInside .negative) = true := by
  have there : (zeroInside .positive).same (zeroInside .negative) = true := by decide +kernel
  obtain ⟨-, symm, trans, equal, byKeys⟩ :=
    equality_laws (zeroInside .positive) (zeroInside .negative) (zeroInside .positive)
  have back : (zeroInside .negative).same (zeroInside .positive) = true := symm ▸ there
  have found := (byKeys (tidy_zeroInside .positive) (tidy_zeroInside .negative)).1
  exact ⟨there, back, trans there back, equal there, found.trans there⟩

end Value

end Trigger
