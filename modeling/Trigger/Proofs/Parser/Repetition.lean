import Mathlib.Algebra.Order.Ring.Nat
import Mathlib.Data.Nat.SuccPred
import Mathlib.Logic.Relation
import Mathlib.Order.WellFounded
import Trigger.Parser.Run

/-!
# Repetitions that end

A run advances in an input if it ends at every place of it and never goes back when it succeeds.  It
may succeed without reading anything, as `optional` does.

A repetition of such a run always ends, since `many` stops at a success that reads nothing.  A list
has no such stop.  Each of its rounds reads a separator and an item, and a round that comes back to
where it started is followed by the same round again.  That is the only way for a list to go on
forever: all other rounds come closer to the end of the input (`separated_endless_iff`).
-/

namespace Trigger.Run

variable {τ α β : Type} {input : List τ}

/-- The run ends at every place of the input, and a success leads from there to a place between it
and the end of the input. -/
structure Advances (input : List τ) (run : Run τ α) : Prop where
  ends (p : Nat) : run (.behind input p) ≠ .endless
  forward {p : Nat} {value : α} {next : Cursor τ} : run (.behind input p) = .success value next →
    ∃ q, p ≤ q ∧ q ≤ max p input.length ∧ next = .behind input q

theorem advances_satisfy (read : τ → Option α) : Advances input (satisfy read) where
  ends p := by
    unfold satisfy
    split
    · nofun
    · split <;> nofun
  forward {p value next} found := by
    unfold satisfy at found
    split at found
    · cases found
    · rename_i item rest here
      split at found
      · cases found
        have inside : p < input.length := by
          have long := congrArg List.length here
          simp only [Cursor.behind, List.length_drop, List.length_cons] at long
          omega
        have behind : rest = input.drop (p + 1) := by
          rw [← List.tail_drop]
          exact (congrArg List.tail here).symm
        exact ⟨p + 1, by omega, by omega, by rw [behind]; rfl⟩
      · cases found

theorem Advances.optional {run : Run τ α} (advances : Advances input run) :
    Advances input (optional run) where
  ends p := by
    have ends := advances.ends p
    unfold Run.optional
    split
    · nofun
    · nofun
    · contradiction
  forward {p value next} found := by
    unfold Run.optional at found
    split at found
    · rename_i read
      cases found
      exact advances.forward read
    · cases found
      exact ⟨p, le_rfl, le_max_left _ _, rfl⟩
    · cases found

/-! ## Repetitions -/

theorem exists_manyWithin {item : Run τ α} (advances : Advances input item) {rounds p : Nat}
    (enough : input.length - p < rounds) :
    ∃ values next, manyWithin item rounds (.behind input p) = .success values next := by
  induction rounds generalizing p with
  | zero => omega
  | succ rounds ih =>
      cases read : item (.behind input p) with
      | endless => exact absurd read (advances.ends p)
      | failure e => exact ⟨[], _, by rw [manyWithin, read]⟩
      | success value next =>
          obtain ⟨q, le, bound, rfl⟩ := advances.forward read
          by_cases further : p < q
          · obtain ⟨values, last, more⟩ := @ih q (by omega)
            refine ⟨value :: values, last, ?_⟩
            rw [manyWithin, read]
            exact (if_pos further).trans (congrArg (Outcome.map _) more)
          · refine ⟨[], .behind input p, ?_⟩
            rw [manyWithin, read]
            exact if_neg further

/-! ## Rounds of a list -/

section
variable {item : Run τ α} {separator : Run τ β} {c d next : Cursor τ}

/-- A round of a list reads a separator and an item behind it. -/
def Round (item : Run τ α) (separator : Run τ β) (c next : Cursor τ) : Prop :=
  ∃ mark behind value, separator c = .success mark behind ∧ item behind = .success value next

theorem Round.unique (round : Round item separator c next) (round' : Round item separator c d) :
    next = d := by
  obtain ⟨_, behind, _, mark, read⟩ := round
  obtain ⟨_, behind', _, mark', read'⟩ := round'
  cases mark.symm.trans mark'
  cases read.symm.trans read'
  rfl

theorem Round.forward (advances : Advances input item) (advances' : Advances input separator)
    {p : Nat} (round : Round item separator (.behind input p) next) :
    ∃ q, p ≤ q ∧ q ≤ max p input.length ∧ next = .behind input q := by
  obtain ⟨_, behind, _, mark, read⟩ := round
  obtain ⟨m, le, bound, rfl⟩ := advances'.forward mark
  obtain ⟨q, le', bound', rfl⟩ := advances.forward read
  exact ⟨q, by omega, by omega, rfl⟩

/-- Rounds lead from a place to one where a round reads nothing. -/
def Idles (item : Run τ α) (separator : Run τ β) (c : Cursor τ) : Prop :=
  ∃ d, Relation.ReflTransGen (Round item separator) c d ∧ Round item separator d d

/-- Behind a place there is a round after the other, without an end. -/
def GoesOn (item : Run τ α) (separator : Run τ β) (c : Cursor τ) : Prop :=
  ∃ places : Nat → Cursor τ, places 0 = c ∧ ∀ n, Round item separator (places n) (places (n + 1))

theorem not_idles (stops : ∀ next, ¬ Round item separator c next) : ¬ Idles item separator c := by
  rintro ⟨d, path, idle⟩
  cases path.cases_head with
  | inl same => exact stops d (same ▸ idle)
  | inr first =>
      obtain ⟨next, round, -⟩ := first
      exact stops next round

/-- Behind a round that reads something it is the same as in front of it. -/
theorem Round.idles_iff (round : Round item separator c next) :
    Idles item separator c ↔ Idles item separator next := by
  constructor
  · rintro ⟨d, path, idle⟩
    cases path.cases_head with
    | inl same =>
        subst same
        exact round.unique idle ▸ ⟨c, .refl, idle⟩
    | inr first =>
        obtain ⟨next', round', path⟩ := first
        obtain rfl := round.unique round'
        exact ⟨d, path, idle⟩
  · rintro ⟨d, path, idle⟩
    exact ⟨d, .head round path, idle⟩

theorem GoesOn.of_idles (idles : Idles item separator c) : GoesOn item separator c := by
  obtain ⟨d, path, idle⟩ := idles
  induction path using Relation.ReflTransGen.head_induction_on with
  | refl => exact ⟨fun _ => d, rfl, fun _ => idle⟩
  | @head c _ round _ ih =>
      obtain ⟨places, rfl, rounds⟩ := ih
      refine ⟨fun n => n.casesOn c places, rfl, fun n => ?_⟩
      cases n with
      | zero => exact round
      | succ n => exact rounds n

variable (advances : Advances input item) (advances' : Advances input separator)
include advances advances'

/-- Rounds that all read something come to the end of the input. -/
theorem idles_of_goesOn {p : Nat} (goesOn : GoesOn item separator (.behind input p)) :
    Idles item separator (.behind input p) := by
  obtain ⟨places, start, rounds⟩ := goesOn
  have within : ∀ n, ∃ q, q ≤ max p input.length ∧ places n = .behind input q := by
    intro n
    induction n with
    | zero => exact ⟨p, le_max_left _ _, start⟩
    | succ n ih =>
        obtain ⟨q, bound, here⟩ := ih
        obtain ⟨q', _, bound', there⟩ := Round.forward advances advances' (here ▸ rounds n)
        exact ⟨q', by omega, there⟩
  have path : ∀ n, Relation.ReflTransGen (Round item separator) (.behind input p) (places n) := by
    intro n
    induction n with
    | zero => rw [start]
    | succ n ih => exact ih.tail (rounds n)
  by_contra none
  have further : ∀ n, (places n).position < (places (n + 1)).position := by
    intro n
    obtain ⟨q, -, here⟩ := within n
    have round := rounds n
    rw [here] at round
    obtain ⟨q', le, -, there⟩ := Round.forward advances advances' round
    rw [here, there]
    refine lt_of_le_of_ne le fun same => none ⟨_, path n, ?_⟩
    have idle := rounds n
    rwa [there, ← show q = q' from same, ← here] at idle
  obtain ⟨q, bound, here⟩ := within (max p input.length + 1)
  have climbs : max p input.length + 1 ≤ (places (max p input.length + 1)).position :=
    (strictMono_nat_of_lt_succ further).le_apply
  rw [here] at climbs
  exact Nat.not_succ_le_self _ (Nat.le_trans climbs bound)

/-- The rounds of a list either come to an end or to a round that reads nothing. -/
theorem separatedWithin_cases {rounds p : Nat} (enough : input.length - p < rounds) :
    (∃ values next,
        separatedWithin item separator rounds (.behind input p) = .success values next) ∧
        ¬ Idles item separator (.behind input p) ∨
      separatedWithin item separator rounds (.behind input p) = .endless ∧
        Idles item separator (.behind input p) := by
  induction rounds generalizing p with
  | zero => omega
  | succ rounds ih =>
      cases mark : separator (.behind input p) with
      | endless => exact absurd mark (advances'.ends p)
      | failure e =>
          refine .inl ⟨⟨[], .behind input p, by rw [separatedWithin, mark]⟩, not_idles ?_⟩
          rintro next ⟨_, _, _, mark', -⟩
          cases mark.symm.trans mark'
      | success value behind =>
          obtain ⟨m, le, bound, rfl⟩ := advances'.forward mark
          cases read : item (.behind input m) with
          | endless => exact absurd read (advances.ends m)
          | failure e =>
              refine .inl ⟨⟨[], .behind input m, by rw [separatedWithin, mark]; simp only [read]⟩,
                not_idles ?_⟩
              rintro next ⟨_, _, _, mark', read'⟩
              cases mark.symm.trans mark'
              cases read.symm.trans read'
          | success value next =>
              have round : Round item separator (.behind input p) next := ⟨_, _, _, mark, read⟩
              obtain ⟨q, le', bound', rfl⟩ := advances.forward read
              have step : separatedWithin item separator (rounds + 1) (.behind input p) =
                  if p < q then
                    (separatedWithin item separator rounds (.behind input q)).map (value :: ·)
                  else .endless := by
                rw [separatedWithin, mark]
                simp only [read]
                rfl
              by_cases further : p < q
              · rw [step, if_pos further, round.idles_iff]
                rcases @ih q (by omega) with ⟨⟨values, last, more⟩, busy⟩ | ⟨more, idles⟩
                · exact .inl ⟨⟨_, _, by rw [more]; rfl⟩, busy⟩
                · exact .inr ⟨by rw [more]; rfl, idles⟩
              · obtain rfl : p = q := by omega
                rw [step, if_neg further]
                exact .inr ⟨rfl, _, .refl, round⟩

/-- A repetition always ends.  A list ends unless its rounds lead, behind the first item, to a round
that reads nothing; otherwise its rounds go on forever. -/
theorem separated_endless_iff (p : Nat) :
    (∃ values next, many item (.behind input p) = .success values next) ∧
    ((∃ values next, separated item separator (.behind input p) = .success values next) ↔
      ¬ ∃ value first, item (.behind input p) = .success value first ∧ Idles item separator first) ∧
    (separated item separator (.behind input p) = .endless ↔
      ∃ value first, item (.behind input p) = .success value first ∧
        GoesOn item separator first) := by
  have enough (q : Nat) : input.length - q < (Cursor.behind input q).rest.length + 1 := by
    simp [Cursor.behind]
  refine ⟨exists_manyWithin advances (enough p), ?_⟩
  cases read : item (.behind input p) with
  | endless => exact absurd read (advances.ends p)
  | failure e => simp [separated, read]
  | success value next =>
      obtain ⟨q, le, bound, rfl⟩ := advances.forward read
      have goesOn :
        GoesOn item separator (.behind input q) ↔ Idles item separator (.behind input q) :=
        ⟨idles_of_goesOn advances advances', .of_idles⟩
      simp only [separated, read, Outcome.success.injEq]
      rcases separatedWithin_cases advances advances' (enough q) with
        ⟨⟨values, last, more⟩, busy⟩ | ⟨more, idles⟩
      · simp [more, Outcome.map, goesOn, busy]
      · simp [more, Outcome.map, goesOn, idles]

end

/-- One digit. -/
def digit : Run Char Char := satisfy fun c => if c.isDigit then some c else none

/-- One comma. -/
def comma : Run Char Unit := satisfy fun c => if c = ',' then some () else none

/-- Digits with commas between them and one behind the last. -/
theorem separated_endless_iff_digits :
    Advances "1,2,".toList digit ∧ Advances "1,2,".toList comma ∧
      ¬ ∃ value first, digit (.behind "1,2,".toList 0) = .success value first ∧
        Idles digit comma first := by
  have advances : Advances "1,2,".toList digit := advances_satisfy _
  have advances' : Advances "1,2,".toList comma := advances_satisfy _
  refine ⟨advances, advances', (separated_endless_iff advances advances' 0).2.1.mp ?_⟩
  exact ⟨['1', '2'], .behind "1,2,".toList 4, rfl⟩

/-- A list whose items and separators may both be left out goes on forever where neither stands. -/
theorem separated_endless_optional :
    Advances [] (optional digit) ∧ Advances [] (optional comma) ∧
      separated (optional digit) (optional comma) (.behind [] 0) = .endless ∧
      GoesOn (optional digit) (optional comma) (.behind [] 0) := by
  have round : Round (optional digit) (optional comma) (.behind [] 0) (.behind [] 0) :=
    ⟨none, .behind [] 0, none, rfl, rfl⟩
  exact ⟨(advances_satisfy _).optional, (advances_satisfy _).optional, rfl,
    fun _ => .behind [] 0, rfl, fun _ => round⟩

end Trigger.Run
