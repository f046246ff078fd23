import Trigger.Proofs.Shape.TopLevel

/-!
# Characters off the top level

`Bare c` says that the character `c` does not stand on the top level of a text.  Brackets hide what
is in them: a text that is passed as one piece is passed in a bracket, too, and there it is bare of
every character (`after?_deeper`, `bare_deeper`).

A text that is bare of a character is not split at the operator of two such characters, and where
such a text stands to the right of the operator, the text is split there (`splitTopLevel?_of_bare`).
-/

namespace Trigger.Text

namespace Nesting

/-- The character does not stand on the top level of a text, behind which the pass goes on. -/
def Bare (c : Char) : Nesting → List Char → Prop
  | _, [] => True
  | l, d :: ds => (d = c → l ≠ start) ∧ ∀ next, l.next? d = some next → Bare c next ds

variable {c : Char} {l m : Nesting} {cs ds : List Char}

theorem bare_of_not_mem (l : Nesting) (none : c ∉ cs) : Bare c l cs := by
  induction cs generalizing l with
  | nil => trivial
  | cons d cs ih =>
      rw [List.mem_cons, not_or] at none
      exact ⟨fun same => absurd same.symm none.1, fun next _ => ih next none.2⟩

theorem Bare.append (bare : Bare c l cs) (after : l.after? cs = some m) (bare' : Bare c m ds) :
    Bare c l (cs ++ ds) := by
  induction cs generalizing l with
  | nil =>
      cases after
      exact bare'
  | cons d cs ih =>
      obtain ⟨next, step, behind⟩ := Option.bind_eq_some_iff.mp after
      refine ⟨bare.1, fun next' step' => ?_⟩
      cases step.symm.trans step'
      exact ih (bare.2 next step) behind

/-- A character that does not stand on the top level stands nowhere between top levels. -/
theorem Bare.not_top (bare : Bare c l (cs ++ c :: ds)) : l.after? cs ≠ some start := by
  intro after
  induction cs generalizing l with
  | nil =>
      cases after
      exact bare.1 rfl rfl
  | cons d cs ih =>
      obtain ⟨next, step, behind⟩ := Option.bind_eq_some_iff.mp after
      exact ih (bare.2 next step) behind

/-- One bracket further in. -/
def deeper (l : Nesting) : Nesting := { l with depth := l.depth + 1 }

theorem next?_deeper {d : Char} (step : l.next? d = some m) : l.deeper.next? d = some m.deeper := by
  unfold next? at step ⊢
  unfold deeper
  grind

/-- In a bracket a text is passed as outside. -/
theorem after?_deeper (after : l.after? cs = some m) : l.deeper.after? cs = some m.deeper := by
  induction cs generalizing l with
  | nil =>
      cases after
      rfl
  | cons d cs ih =>
      obtain ⟨next, step, behind⟩ := Option.bind_eq_some_iff.mp after
      rw [after?, next?_deeper step]
      exact ih behind

/-- In a bracket nothing is on the top level, until the bracket closes. -/
theorem bare_deeper (c : Char) (after : l.after? cs = some m) : Bare c l.deeper cs := by
  induction cs generalizing l with
  | nil => trivial
  | cons d cs ih =>
      obtain ⟨next, step, behind⟩ := Option.bind_eq_some_iff.mp after
      refine ⟨fun _ top => ?_, fun next' step' => ?_⟩
      · cases congrArg Nesting.depth top
      · cases (next?_deeper step).symm.trans step'
        exact ih behind

end Nesting

open Nesting

section
variable {c : Char} (neutral : isNeutral c = true)
include neutral

theorem splitTopLevel?_eq_none {cs : List Char} (bare : Bare c start cs) :
    splitTopLevel? [c, c] cs = none := by
  cases found : splitTopLevel? [c, c] cs with
  | none => rfl
  | some pair =>
      obtain ⟨-, ⟨rfl, top⟩, -⟩ := splitTopLevel?_eq_some (by simp) (by simp [neutral]) found
      rw [List.append_assoc] at bare
      exact absurd top bare.not_top

theorem after?_around {left right : List Char} (top : start.after? left = some start)
    (balanced : start.after? right = some start) :
    start.after? (left ++ ([c, c] ++ right)) = some start := by
  have operator : start.after? [c, c] = some start := after?_of_neutral rfl (by simp [neutral])
  simp only [after?_append, top, operator, Option.bind_some, balanced]

/-- Where the character does not stand on the top level to the right, the last place is here. -/
theorem splitTopLevel?_of_bare {left right : List Char} (top : start.after? left = some start)
    (balanced : start.after? right = some start) (bare : Bare c start right) :
    splitTopLevel? [c, c] (left ++ ([c, c] ++ right)) = some (left, right) := by
  have whole : isBalanced (left ++ ([c, c] ++ right)) = true :=
    isBalanced_iff.mpr (after?_around neutral top balanced)
  have here : Splits [c, c] (left ++ ([c, c] ++ right)) left right := ⟨by simp, top⟩
  have isSplit := splitTopLevel?_isSome (by simp) (by simp [neutral]) whole here
  obtain ⟨⟨left', right'⟩, found⟩ := Option.isSome_iff_exists.mp isSplit
  obtain ⟨-, ⟨eq, top'⟩, last⟩ := splitTopLevel?_eq_some (by simp) (by simp [neutral]) found
  have later := last left right here
  rw [List.append_assoc] at eq
  obtain ⟨more, rfl⟩ : ∃ more, left' = left ++ more := by
    have isPrefix : left <+: left' :=
      List.prefix_of_prefix_length_le ⟨_, rfl⟩ ⟨_, eq.symm⟩ later
    obtain ⟨more, eq⟩ := isPrefix
    exact ⟨more, eq.symm⟩
  rw [List.append_assoc, List.append_cancel_left_eq] at eq
  rw [after?_append, top, Option.bind_some] at top'
  match more, eq, top' with
  | [], eq, _ =>
      obtain rfl := List.append_cancel_left eq
      rw [found, List.append_nil]
  | [d], eq, _ =>
      -- The two places overlap, so the character stands in front of the text to the right.
      simp only [List.cons_append, List.nil_append, List.cons.injEq, true_and] at eq
      obtain ⟨rfl, rfl⟩ := eq
      exact absurd rfl (bare.1 rfl)
  | d :: e :: more, eq, top' =>
      simp only [List.cons_append, List.nil_append, List.cons.injEq] at eq
      obtain ⟨rfl, rfl, rfl⟩ := eq
      have operator : start.after? [c, c] = some start := after?_of_neutral rfl (by simp [neutral])
      have behind : start.after? ([c, c] ++ more) = some start := top'
      rw [after?_append, operator, Option.bind_some] at behind
      exact absurd behind bare.not_top

end

theorem trimEnd_of_blanks {d : Char} {blanks : List Char} (solid : isBlank d = false)
    (blank : blanks.all isBlank = true) (cs : List Char) :
    trimEnd (cs ++ d :: blanks) = cs ++ [d] := by
  have blank : ∀ c ∈ blanks.reverse, isBlank c = true := fun c mem =>
    List.all_eq_true.mp blank c (List.mem_reverse.mp mem)
  rw [trimEnd, List.reverse_append, List.reverse_cons, List.append_assoc,
    List.dropWhile_append_of_pos blank, List.singleton_append,
    List.dropWhile_cons_of_neg (by simp [solid])]
  simp

section
variable {before inner behind : List Char} (blank : before.all isBlank = true)
  (blank' : behind.all isBlank = true) (balanced : start.after? inner = some start)
include blank blank' balanced

/-- The parentheses of a text in parentheses are dropped. -/
theorem stripParens?_of_balanced :
    stripParens? (before ++ '(' :: (inner ++ ')' :: behind)) = some inner := by
  have front : trimStart (before ++ '(' :: (inner ++ ')' :: behind)) =
      '(' :: inner ++ ')' :: behind := by
    rw [trimStart, List.dropWhile_append_of_pos (List.all_eq_true.mp blank)]
    rfl
  have trimmed : trim (before ++ '(' :: (inner ++ ')' :: behind)) = '(' :: (inner ++ [')']) := by
    rw [trim, front, trimEnd_of_blanks (by decide) blank']
    rfl
  simp only [stripParens?, trimmed]
  rw [List.dropLast_concat, isBalanced_iff.mpr balanced]
  simp

theorem after?_parenthesized :
    start.after? (before ++ '(' :: (inner ++ ')' :: behind)) = some start := by
  have opened : start.next? '(' = some start.deeper := rfl
  have closed : start.deeper.next? ')' = some start := rfl
  rw [after?_append, after?_of_neutral rfl (all_isNeutral_of_isBlank blank), Option.bind_some,
    after?, opened,
    Option.bind_some, after?_append, after?_deeper balanced, Option.bind_some, after?, closed,
    Option.bind_some]
  exact after?_of_neutral rfl (all_isNeutral_of_isBlank blank')

theorem bare_parenthesized {c : Char} (solid : isBlank c = false) (neutral : isNeutral c = true) :
    Bare c start (before ++ '(' :: (inner ++ ')' :: behind)) := by
  have absent {blanks : List Char} (blank : blanks.all isBlank = true) : c ∉ blanks := by
    intro mem
    rw [List.all_eq_true.mp blank c mem] at solid
    cases solid
  have bracket : '(' ≠ c ∧ ')' ≠ c := by
    constructor <;> rintro rfl <;> cases neutral
  refine (bare_of_not_mem start (absent blank)).append
    (after?_of_neutral rfl (all_isNeutral_of_isBlank blank)) ?_
  refine ⟨fun same => absurd same bracket.1, ?_⟩
  rintro _ ⟨⟩
  refine (bare_deeper c balanced).append (after?_deeper balanced)
    ⟨fun same => absurd same bracket.2, ?_⟩
  rintro _ ⟨⟩
  exact bare_of_not_mem start (absent blank')

end

end Trigger.Text
