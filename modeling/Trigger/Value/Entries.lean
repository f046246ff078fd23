/-!
# Entries

Values under keys, without two under one key.  Entries are kept in the order of their keys, so there
is one list for each assignment of values to keys, and two lists can be compared entry by entry.
-/

namespace Trigger

/-- Values under keys, in the order of the keys. -/
abbrev Entries (α : Type) := List (String × α)

namespace Entries

variable {α : Type}

/-- The value under a key. -/
def find? (key : String) : Entries α → Option α
  | [] => none
  | (k, value) :: more => if k = key then some value else find? key more

/-- The entries with a value put under a key.  It replaces the value that was there. -/
def insert (key : String) (value : α) : Entries α → Entries α
  | [] => [(key, value)]
  | (k, v) :: more =>
    if key < k then (key, value) :: (k, v) :: more
    else if key = k then (key, value) :: more
    else (k, v) :: insert key value more

/-- The entries of a list in which a later value replaces an earlier one. -/
def ofList (list : List (String × α)) : Entries α :=
  list.foldl (fun entries (key, value) => insert key value entries) []

/-- The keys, in order. -/
def keys (entries : Entries α) : List String := entries.map (·.1)

/-- Whether every key is below the ones behind it. -/
def Sorted (entries : Entries α) : Prop := entries.keys.Pairwise (· < ·)

theorem mem_keys_insert {key k : String} {value : α} {entries : Entries α} :
    k ∈ (insert key value entries).keys ↔ k = key ∨ k ∈ entries.keys := by
  induction entries with
  | nil => simp [insert, keys]
  | cons entry more ih =>
    obtain ⟨l, v⟩ := entry
    simp only [keys] at ih
    by_cases below : key < l
    · simp [insert, keys, below]
    · by_cases found : key = l
      · subst found
        simp only [insert, keys, below, if_false, if_true, List.map_cons, List.mem_cons,
          or_self_left]
      · simp only [insert, keys, below, found, if_false, List.map_cons, List.mem_cons, ih]
        constructor <;> rintro (h | h | h) <;> simp [h]

@[simp] theorem sorted_cons {key : String} {value : α} {more : Entries α} :
    Sorted ((key, value) :: more) ↔ (∀ k ∈ keys more, key < k) ∧ Sorted more := by
  simp [Sorted, keys]

/-- Putting a value under a key keeps the order of the keys. -/
theorem Sorted.insert {entries : Entries α} (sorted : entries.Sorted) (key : String) (value : α) :
    (Entries.insert key value entries).Sorted := by
  induction entries with
  | nil => simp [Entries.insert, Sorted, keys]
  | cons entry more ih =>
    obtain ⟨l, v⟩ := entry
    obtain ⟨above, rest⟩ := sorted_cons.mp sorted
    by_cases below : key < l
    · have all : ∀ k ∈ keys ((l, v) :: more), key < k := by
        intro k mem
        rcases List.mem_cons.mp mem with rfl | mem
        · exact below
        · exact String.lt_trans below (above k mem)
      simpa only [Entries.insert, below, if_true] using sorted_cons.mpr ⟨all, sorted⟩
    · by_cases found : key = l
      · subst found
        simpa only [Entries.insert, below, if_false, if_true] using sorted_cons.mpr ⟨above, rest⟩
      · have beyond : l < key := by
          refine String.not_le.mp fun reverse => found ?_
          exact String.le_antisymm reverse (String.not_lt.mp below)
        have all : ∀ k ∈ keys (Entries.insert key value more), l < k := by
          intro k mem
          rcases mem_keys_insert.mp mem with rfl | mem
          · exact beyond
          · exact above k mem
        simpa only [Entries.insert, below, found, if_false] using sorted_cons.mpr ⟨all, ih rest⟩

/-- The entries of a list are in the order of their keys. -/
theorem sorted_ofList (list : List (String × α)) : (ofList list).Sorted := by
  suffices ∀ entries : Entries α, entries.Sorted →
      (list.foldl (fun entries (key, value) => insert key value entries) entries).Sorted from
    this [] (by simp [Sorted, keys])
  induction list with
  | nil => exact fun entries sorted => sorted
  | cons entry more ih => exact fun entries sorted => ih _ (sorted.insert entry.1 entry.2)

end Entries

end Trigger
