/-!
# Languages

A language says which words stand for which value.  The ways to put languages together follow the
ways to put runs together.  `StartsIn` bounds the first items of the words of a language that has no
empty word.
-/

namespace Trigger

/-- Words of items, and the values that they stand for. -/
abbrev Language (τ α : Type) := List τ → α → Prop

namespace Language

variable {τ α β γ : Type}

/-- The words of one item that has a reading. -/
def item (read : τ → Option α) : Language τ α := fun u v => ∃ t, u = [t] ∧ read t = some v

/-- The word of one given item. -/
def only (value : τ) : Language τ τ := fun u v => u = [value] ∧ v = value

/-- The words of a language, with a function applied to their values. -/
def map (f : α → β) (L : Language τ α) : Language τ β := fun u w => ∃ v, L u v ∧ f v = w

/-- The words of either language. -/
def union (L M : Language τ α) : Language τ α := fun u v => L u v ∨ M u v

/-- A word of one language in front of a word of another. -/
def seq (L : Language τ α) (M : Language τ β) : Language τ (α × β) :=
  fun w v => ∃ u₁ u₂, w = u₁ ++ u₂ ∧ L u₁ v.1 ∧ M u₂ v.2

/-- A word of the language, or none. -/
def option (L : Language τ α) : Language τ (Option α)
  | u, none => u = []
  | u, some v => L u v

/-- Any number of words of the language. -/
inductive Star (L : Language τ α) : Language τ (List α)
  | nil : Star L [] []
  | cons : L u v → Star L w vs → Star L (u ++ w) (v :: vs)

/-- Further items of a list, each behind a separator, and possibly a separator behind the last. -/
inductive Tail (L : Language τ α) (S : Language τ β) : Language τ (List α)
  | nil : Tail L S [] []
  | trailing : S u b → Tail L S u []
  | cons : S u b → L w v → Tail L S x vs → Tail L S (u ++ w ++ x) (v :: vs)

/-- The items of a list, which may be empty. -/
inductive Listed (L : Language τ α) (S : Language τ β) : Language τ (List α)
  | nil : Listed L S [] []
  | cons : L u v → Tail L S w vs → Listed L S (u ++ w) (v :: vs)

/-- Every word has an item, and the first one is in the set. -/
def StartsIn (L : Language τ α) (first : τ → Prop) : Prop :=
  ∀ u v, L u v → ∃ t w, u = t :: w ∧ first t

theorem StartsIn.mono {L : Language τ α} {first first' : τ → Prop} (starts : L.StartsIn first)
    (sub : ∀ t, first t → first' t) : L.StartsIn first' := by
  intro u v word
  obtain ⟨t, w, eq, ht⟩ := starts u v word
  exact ⟨t, w, eq, sub t ht⟩

theorem StartsIn.map {L : Language τ α} {first : τ → Prop} (starts : L.StartsIn first)
    (f : α → β) : (L.map f).StartsIn first := by
  rintro u w ⟨v, word, -⟩
  exact starts u v word

theorem StartsIn.seq {L : Language τ α} {first : τ → Prop} (starts : L.StartsIn first)
    (M : Language τ β) : (L.seq M).StartsIn first := by
  rintro u v ⟨u₁, u₂, rfl, left, -⟩
  obtain ⟨t, w, rfl, ht⟩ := starts _ _ left
  exact ⟨t, w ++ u₂, rfl, ht⟩

theorem StartsIn.union {L M : Language τ α} {first second : τ → Prop} (left : L.StartsIn first)
    (right : M.StartsIn second) : (L.union M).StartsIn fun t => first t ∨ second t := by
  rintro u v (word | word)
  · exact left.mono (fun _ => .inl) u v word
  · exact right.mono (fun _ => .inr) u v word

theorem startsIn_item (read : τ → Option α) :
    (item read).StartsIn fun t => (read t).isSome = true := by
  rintro u v ⟨t, rfl, found⟩
  exact ⟨t, [], rfl, by simp [found]⟩

theorem startsIn_only (value : τ) : (only value).StartsIn (· = value) := by
  rintro u v ⟨rfl, -⟩
  exact ⟨value, [], rfl, rfl⟩

theorem StartsIn.length_pos {L : Language τ α} {first : τ → Prop} (starts : L.StartsIn first)
    {u : List τ} {v : α} (word : L u v) : 0 < u.length := by
  obtain ⟨t, w, rfl, -⟩ := starts u v word
  exact Nat.succ_pos _

theorem Star.append {L : Language τ α} {u w : List τ} {vs ws : List α} (left : Star L u vs)
    (right : Star L w ws) : Star L (u ++ w) (vs ++ ws) := by
  induction left with
  | nil => exact right
  | cons head _ ih =>
      rw [List.append_assoc]
      exact .cons head ih

theorem Star.starts {L : Language τ α} {start : τ → Prop} (starts : L.StartsIn start)
    {u : List τ} {vs : List α} (words : L.Star u vs) : ∀ t ∈ u.head?, start t := by
  intro t mem
  cases words with
  | nil => cases mem
  | cons head _ =>
      obtain ⟨t', w, rfl, ht⟩ := starts _ _ head
      cases mem
      exact ht

/-- What stands behind an item starts with a separator. -/
theorem Tail.starts {L : Language τ α} {S : Language τ β} {start : τ → Prop}
    (starts : S.StartsIn start) {u : List τ} {vs : List α} (words : L.Tail S u vs) :
    ∀ t ∈ u.head?, start t := by
  intro t mem
  cases words with
  | nil => cases mem
  | trailing behind =>
      obtain ⟨t', w, rfl, ht⟩ := starts _ _ behind
      cases mem
      exact ht
  | cons behind _ _ =>
      obtain ⟨t', w, rfl, ht⟩ := starts _ _ behind
      cases mem
      exact ht

/-- A list that is not empty, with a separator in front. -/
theorem Listed.behind {L : Language τ α} {S : Language τ β} {s u : List τ} {b : β} {vs : List α}
    (words : L.Listed S u vs) (nonempty : vs ≠ []) (separator : S s b) :
    L.Tail S (s ++ u) vs := by
  cases words with
  | nil => contradiction
  | cons head tail =>
      rw [← List.append_assoc]
      exact .cons separator head tail

/-- A word with one more word behind it. -/
theorem Star.snoc {L : Language τ α} {u w : List τ} {vs : List α} {v : α} (left : Star L u vs)
    (last : L w v) : Star L (u ++ w) (vs ++ [v]) := by
  have single : Star L (w ++ []) [v] := .cons last .nil
  rw [List.append_nil] at single
  exact left.append single

end Language

end Trigger
