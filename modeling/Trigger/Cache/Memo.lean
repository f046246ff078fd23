/-!
# Memo tables

What has been found for a text is kept under the text.  The first entry for a text stays; the table
only grows, until it is replaced by an empty one.
-/

namespace Trigger

/-- Values that are kept under texts, newest first. -/
structure Memo (α : Type) where
  entries : List (String × α)

namespace Memo

variable {α : Type}

def empty : Memo α := ⟨[]⟩

/-- The value under a text. -/
def find? (m : Memo α) (text : String) : Option α := m.entries.lookup text

def contains (m : Memo α) (text : String) : Bool := (m.find? text).isSome

/-- The number of texts. -/
def size (m : Memo α) : Nat := m.entries.length

/-- The table with a value under a text, unless there is one already. -/
def insert (m : Memo α) (text : String) (value : α) : Memo α :=
  if m.contains text then m else ⟨(text, value) :: m.entries⟩

@[simp] theorem find?_empty (text : String) : (empty : Memo α).find? text = none := rfl

@[simp] theorem contains_empty (text : String) : (empty : Memo α).contains text = false := rfl

@[simp] theorem size_empty : (empty : Memo α).size = 0 := rfl

theorem insert_of_contains {m : Memo α} {text : String} (known : m.contains text = true)
    (value : α) : m.insert text value = m := by
  simp [insert, known]

theorem insert_of_not_contains {m : Memo α} {text : String} (missing : m.contains text = false)
    (value : α) : m.insert text value = ⟨(text, value) :: m.entries⟩ := by
  simp [insert, missing]

/-- The value that was first put under a text stays. -/
theorem find?_insert_self (m : Memo α) (text : String) (value : α) :
    (m.insert text value).find? text = some ((m.find? text).getD value) := by
  cases known : m.contains text with
  | true =>
    obtain ⟨old, found⟩ := Option.isSome_iff_exists.mp known
    rw [insert_of_contains known, found, Option.getD_some]
  | false =>
    have missing : m.find? text = none := by simpa [contains] using known
    rw [insert_of_not_contains known, missing]
    simp [find?]

theorem find?_insert_of_ne (m : Memo α) {text other : String} (apart : other ≠ text) (value : α) :
    (m.insert text value).find? other = m.find? other := by
  cases known : m.contains text with
  | true => rw [insert_of_contains known]
  | false =>
    rw [insert_of_not_contains known]
    have apart : (other == text) = false := by simpa using apart
    simp [find?, List.lookup_cons, apart]

theorem size_insert (m : Memo α) (text : String) (value : α) :
    (m.insert text value).size = if m.contains text then m.size else m.size + 1 := by
  cases known : m.contains text <;> simp [insert, known, size]

end Memo

end Trigger
