import Trigger.Proofs.Expr.Exact

/-!
# The nesting of an expression

The nesting of an expression is the number of unary operands and brackets that a path from its root
goes into, where the path goes into the most of them.  It can be counted in one pass over the
tokens, the way that `Limits` counts what is open, if the pass keeps what the operators in front of
an operand wait for until the whole operand is read:

* A name or a literal does not end the operand, since a link or arguments may stand behind it.  A
  closing bracket does not end it either.
* A binary operator, a comma and a colon do.
* A parenthesis is only counted where it opens arguments.  An expression in parentheses has no node
  of its own.

`Descent` is this pass.  The pass of `Limits` drops the operators at the name, so it may count less
than there is, and the nesting of an expression may be larger than `Limits.nesting`.
-/

namespace Trigger

namespace Expr

mutual

/-- The most unary operands and brackets that a path from the root goes into. -/
def nesting : Expr → Nat
  | literal _ | name _ => 0
  | array items => nestingAll items
  | object entries => nestingEntries entries
  | call _ arguments => nestingAll arguments
  | chain base links => max base.nesting (nestingLinks links)
  | unary _ operand => operand.nesting + 1
  | binary _ left right => max left.nesting right.nesting
termination_by structural x => x

/-- The nesting of brackets around expressions. -/
def nestingAll : List Expr → Nat
  | [] => 0
  | e :: es => max (e.nesting + 1) (nestingAll es)
termination_by structural x => x

/-- The nesting of brackets around values under keys. -/
def nestingEntries : List (String × Expr) → Nat
  | [] => 0
  | (_, e) :: entries => max (e.nesting + 1) (nestingEntries entries)
termination_by structural x => x

/-- The nesting of links. -/
def nestingLinks : List Link → Nat
  | [] => 0
  | link :: links => max (nestingLink link) (nestingLinks links)
termination_by structural x => x

/-- The nesting of a link. -/
def nestingLink : Link → Nat
  | .member _ _ => 0
  | .method _ arguments _ => nestingAll arguments
  | .index key => key.nesting + 1
termination_by structural x => x

end

theorem add_nestingAll_le (es : List Expr) (m k : Nat) :
    m + nestingAll es ≤ k ↔ m ≤ k ∧ ∀ e ∈ es, m + 1 + e.nesting ≤ k := by
  induction es with
  | nil => simp [nestingAll]
  | cons e es ih =>
      rw [List.forall_mem_cons, and_left_comm, ← ih, nestingAll]
      omega

theorem add_nestingEntries_le (entries : List (String × Expr)) (m k : Nat) :
    m + nestingEntries entries ≤ k ↔ m ≤ k ∧ ∀ v ∈ entries, m + 1 + v.2.nesting ≤ k := by
  induction entries with
  | nil => simp [nestingEntries]
  | cons v entries ih =>
      rw [List.forall_mem_cons, and_left_comm, ← ih, nestingEntries]
      omega

theorem nesting_linked (base : Expr) (links : List Link) :
    (base.linked links).nesting = max base.nesting (nestingLinks links) := by
  cases links with
  | nil => exact (Nat.max_zero _).symm
  | cons link links => rfl

end Expr

/-! ## The pass -/

/-- What the pass knows in front of a token. -/
structure Descent where
  /-- For each open bracket, innermost first, the operators that wait for the operand it belongs to,
  and whether it goes into a node. -/
  held : List (Nat × Bool)
  /-- The unary operators that wait for the end of their operand. -/
  waiting : Nat
  /-- Whether the token before may end an operand. -/
  afterOperand : Bool

namespace Descent

/-- The state in front of the first token. -/
def start : Descent := ⟨[], 0, false⟩

/-- The operands and brackets that are gone into. -/
def steps (s : Descent) : Nat :=
  s.held.foldr (fun frame n => frame.1 + frame.2.toNat + n) 0 + s.waiting

/-- The state inside a bracket. -/
def opened (s : Descent) (enters : Bool) : Descent := ⟨(s.waiting, enters) :: s.held, 0, false⟩

/-- The state behind a bracket. -/
def closed (s : Descent) : Descent :=
  match s.held with
  | [] => ⟨[], 0, true⟩
  | (waiting, _) :: held => ⟨held, waiting, true⟩

/-- The state behind a token. -/
def next (s : Descent) : Token → Descent
  | .delimiter .openParen => s.opened s.afterOperand
  | .delimiter .openBracket | .delimiter .openBrace => s.opened true
  | .delimiter .closeParen | .delimiter .closeBracket | .delimiter .closeBrace => s.closed
  | .delimiter .comma | .delimiter .colon => { s with waiting := 0, afterOperand := false }
  | .operator symbol =>
    if s.afterOperand then
      if symbol.access?.isSome then s else { s with waiting := 0, afterOperand := false }
    else { s with waiting := if symbol.unary?.isSome then s.waiting + 1 else 0 }
  | _ => { s with afterOperand := true }

/-- The state behind tokens. -/
def run (s : Descent) (tokens : List Token) : Descent := tokens.foldl next s

/-- No operand ends deeper than the bound. -/
def Within (bound : Nat) (s : Descent) : List Token → Prop
  | [] => True
  | t :: tokens =>
    ((s.next t).afterOperand = true → (s.next t).steps ≤ bound) ∧ (s.next t).Within bound tokens

theorem run_append (s : Descent) (u w : List Token) : s.run (u ++ w) = (s.run u).run w :=
  List.foldl_append

@[simp] theorem run_cons (s : Descent) (t : Token) (u : List Token) :
    s.run (t :: u) = (s.next t).run u := rfl

@[simp] theorem run_nil (s : Descent) : s.run [] = s := rfl

theorem within_append (bound : Nat) (s : Descent) (u w : List Token) :
    s.Within bound (u ++ w) ↔ s.Within bound u ∧ (s.run u).Within bound w := by
  induction u generalizing s with
  | nil => simp [Within]
  | cons t u ih => simp [Within, ih, and_assoc]

@[simp] theorem steps_opened (s : Descent) (enters : Bool) :
    (s.opened enters).steps = s.steps + enters.toNat := by
  simp only [steps, opened, List.foldr_cons]
  omega

/-! ## What the pass counts -/

section
variable {held : List (Nat × Bool)} {waiting : Nat}

theorem next_binary (op : BinaryOp) :
    next ⟨held, waiting, true⟩ (.operator op.symbol) = ⟨held, 0, false⟩ := by
  cases op <;> rfl

theorem next_unary (op : UnaryOp) :
    next ⟨held, waiting, false⟩ (.operator op.symbol) = ⟨held, waiting + 1, false⟩ := by
  cases op <;> rfl

theorem next_access {symbol : Operator} {optional : Bool} (means : symbol.access? = some optional) :
    next ⟨held, waiting, true⟩ (.operator symbol) = ⟨held, waiting, true⟩ := by
  simp [next, means]

theorem next_literal {s : Descent} {t : Token} {value : Literal}
    (writes : t.literal? = some value) :
    s.next t = ⟨s.held, s.waiting, true⟩ := by
  cases t <;> first | rfl | cases writes

theorem next_key {s : Descent} {t : Token} {key : String} (writes : t.key? = some key) :
    s.next t = ⟨s.held, s.waiting, true⟩ := by
  cases t <;> first | rfl | cases writes

end

/-- From this state on the tokens are an operand of the given nesting, and `after` operators wait
behind it. -/
structure Counts (s : Descent) (u : List Token) (nesting after : Nat) : Prop where
  /-- The brackets of the tokens are closed. -/
  run : s.run u = ⟨s.held, after, true⟩
  /-- The operands inside are as deep as the nesting says. -/
  within : ∀ bound, s.Within bound u ↔ s.steps + nesting ≤ bound

/-- From this state on the tokens are parts of the operand in front of them. -/
structure CountsBehind (s : Descent) (u : List Token) (nesting : Nat) : Prop where
  /-- The brackets of the tokens are closed, and the same operators wait. -/
  run : s.run u = s
  /-- The operands inside are as deep as the nesting says. -/
  within : ∀ bound, s.steps ≤ bound → (s.Within bound u ↔ s.steps + nesting ≤ bound)

/-- From this state on the tokens are a list of items of the given nestings. -/
structure CountsAll (s : Descent) (u : List Token) (nestings : List Nat) : Prop where
  /-- The brackets of the tokens are closed. -/
  run : (s.run u).held = s.held
  /-- The operands inside are as deep as the nestings say. -/
  within : ∀ bound, s.Within bound u ↔ ∀ n ∈ nestings, s.steps + n ≤ bound

end Descent

/-- The nesting of an item of a list, for the two kinds of items that there are. -/
def Phrase.nesting? : (item : Phrase) → Option (item.Value → Nat)
  | .expression => some Expr.nesting
  | .entry => some fun v => v.2.nesting
  | _ => none

open Descent (Counts CountsBehind CountsAll)

/-- What the pass counts on the tokens of a phrase. -/
def Phrase.Counted : (p : Phrase) → List Token → p.Value → Prop
  | .expression, u, e | .binary _, u, e =>
    ∀ held, ∃ after, Counts ⟨held, 0, false⟩ u e.nesting after
  | .unary, u, e => ∀ held waiting, ∃ after, Counts ⟨held, waiting, false⟩ u e.nesting after
  | .postfixed, u, e | .primary, u, e =>
    ∀ held waiting, Counts ⟨held, waiting, false⟩ u e.nesting waiting
  | .links, u, ls =>
    ∀ held waiting, CountsBehind ⟨held, waiting, true⟩ u (Expr.nestingLinks ls)
  | .link, u, l =>
    ∀ held waiting, CountsBehind ⟨held, waiting, true⟩ u (Expr.nestingLink l)
  | .entry, u, v => ∀ held, ∃ after, Counts ⟨held, 0, false⟩ u v.2.nesting after
  | .list item, u, vs | .items item, u, vs =>
    ∀ nesting, item.nesting? = some nesting →
      ∀ held, CountsAll ⟨held, 0, false⟩ u (vs.map nesting)

theorem Phrase.Counted.item {item : Phrase} {u : List Token} {v : item.Value}
    {nesting : item.Value → Nat} (counted : item.Counted u v) (deep : item.nesting? = some nesting)
    (held : List (Nat × Bool)) : ∃ after, Counts ⟨held, 0, false⟩ u (nesting v) after := by
  cases item <;> cases deep
  · exact counted held
  · exact counted held

namespace Descent

section
variable {s : Descent} {u : List Token} {enters : Bool} (left right : Delimiter)

theorem run_between (opens : s.next (.delimiter left) = s.opened enters)
    (closes : ∀ s' : Descent, s'.next (.delimiter right) = s'.closed)
    (inside : ((s.opened enters).run u).held = (s.opened enters).held) :
    s.run (Token.between left u right) = ⟨s.held, s.waiting, true⟩ := by
  simp only [Token.between, run_cons, opens, run_append, run_nil, closes, closed, inside]
  rfl

theorem within_between (opens : s.next (.delimiter left) = s.opened enters)
    (closes : ∀ s' : Descent, s'.next (.delimiter right) = s'.closed)
    (inside : ((s.opened enters).run u).held = (s.opened enters).held) (bound : Nat) :
    s.Within bound (Token.between left u right) ↔
      s.steps ≤ bound ∧ (s.opened enters).Within bound u := by
  have behind : ((s.opened enters).run u).closed = ⟨s.held, s.waiting, true⟩ := by
    simp only [closed, inside]
    rfl
  simp only [Token.between, Within, opens, within_append, closes, behind]
  simp [opened, steps, and_comm]

/-- Brackets around one expression. -/
theorem Counts.between {nesting after : Nat} (inner : Counts (s.opened enters) u nesting after)
    (opens : s.next (.delimiter left) = s.opened enters)
    (closes : ∀ s' : Descent, s'.next (.delimiter right) = s'.closed) :
    Counts s (Token.between left u right) (nesting + enters.toNat) s.waiting := by
  have inside : ((s.opened enters).run u).held = (s.opened enters).held := by rw [inner.run]
  refine ⟨run_between left right opens closes inside, ?_⟩
  intro bound
  rw [within_between left right opens closes inside, inner.within, steps_opened]
  omega

/-- Brackets around a list of items. -/
theorem CountsAll.between {nestings : List Nat} {nesting : Nat}
    (items : CountsAll (s.opened true) u nestings)
    (deepest : ∀ m k, m + nesting ≤ k ↔ m ≤ k ∧ ∀ n ∈ nestings, m + 1 + n ≤ k)
    (opens : s.next (.delimiter left) = s.opened true)
    (closes : ∀ s' : Descent, s'.next (.delimiter right) = s'.closed) :
    Counts s (Token.between left u right) nesting s.waiting := by
  refine ⟨run_between left right opens closes items.run, ?_⟩
  intro bound
  rw [within_between left right opens closes items.run, items.within, steps_opened, deepest]
  rfl

/-- A token in front of an operand, which may add to what waits for it. -/
theorem Counts.cons {s' : Descent} {t : Token} {nesting after more : Nat}
    (rest : Counts s' u nesting after) (step : s.next t = s') (held : s'.held = s.held)
    (deeper : s'.steps = s.steps + more) : Counts s (t :: u) (nesting + more) after := by
  constructor
  · rw [run_cons, step, rest.run, held]
  · intro bound
    rw [Within, step, rest.within, deeper]
    omega

/-- A token that is part of an operand. -/
theorem Counts.through {s' : Descent} (t : Token) {nesting after : Nat}
    (rest : Counts s' u nesting after) (step : s.next t = s') (held : s'.held = s.held)
    (same : s'.steps = s.steps) : Counts s (t :: u) nesting after :=
  rest.cons step held (same.trans (Nat.add_zero _).symm)

/-- An operand and what belongs to it behind. -/
theorem Counts.append {w : List Token} {m n : Nat} (first : Counts s u m s.waiting)
    (rest : CountsBehind { s with afterOperand := true } w n) :
    Counts s (u ++ w) (max m n) s.waiting := by
  refine ⟨?_, ?_⟩
  · rw [run_append, first.run]
    exact rest.run
  · intro bound
    have behind (short : s.steps + m ≤ bound) :=
      rest.within bound (Nat.le_trans (Nat.le_add_right _ _) short)
    rw [within_append, first.run, first.within, ← Nat.add_max_add_left, Nat.max_le]
    exact and_congr_right behind

/-- Two operands with a binary operator between them. -/
theorem Counts.join {held : List (Nat × Bool)} {w : List Token} {m n before after : Nat}
    (op : BinaryOp) (first : Counts ⟨held, 0, false⟩ u m before)
    (second : Counts ⟨held, 0, false⟩ w n after) :
    Counts ⟨held, 0, false⟩ (u ++ .operator op.symbol :: w) (max m n) after := by
  refine ⟨?_, ?_⟩
  · rw [run_append, first.run, run_cons, next_binary, second.run]
  · intro bound
    rw [within_append, first.run, Within, next_binary, first.within, second.within]
    simp only [Bool.false_eq_true, false_implies, true_and]
    omega

/-- Parts of an operand and more of them. -/
theorem CountsBehind.append {w : List Token} {m n : Nat} (first : CountsBehind s u m)
    (rest : CountsBehind s w n) : CountsBehind s (u ++ w) (max m n) := by
  refine ⟨?_, ?_⟩
  · rw [run_append, first.run, rest.run]
  · intro bound short
    rw [within_append, first.run, first.within bound short, rest.within bound short]
    omega

/-- An item in front of a list. -/
theorem CountsAll.cons {held : List (Nat × Bool)} {w : List Token} {n after : Nat}
    {nestings : List Nat} (first : Counts ⟨held, 0, false⟩ u n after)
    (rest : CountsAll ⟨held, 0, false⟩ w nestings) :
    CountsAll ⟨held, 0, false⟩ (u ++ .delimiter .comma :: w) (n :: nestings) := by
  refine ⟨?_, ?_⟩
  · rw [run_append, first.run]
    exact rest.run
  · intro bound
    rw [within_append, first.run, first.within, List.forall_mem_cons, ← rest.within]
    simp [Within, next]

theorem Counts.countsBehind {nesting : Nat} (counts : Counts s u nesting s.waiting)
    (after : s.afterOperand = true) : CountsBehind s u nesting := by
  constructor
  · rw [counts.run, ← after]
  · exact fun bound _ => counts.within bound

end

end Descent

open Descent

theorem Expr.deepest_all (es : List Expr) (m k : Nat) :
    m + nestingAll es ≤ k ↔ m ≤ k ∧ ∀ n ∈ es.map nesting, m + 1 + n ≤ k := by
  rw [add_nestingAll_le, List.forall_mem_map]

theorem Derives.counted {p : Phrase} {u : List Token} {v : p.Value} (word : Derives p u v) :
    p.Counted u v := by
  induction word with
  | expression _ ih => exact ih
  | operand _ ih => exact fun held => ih held 0
  | tighter _ ih => exact ih
  | @join _ _ op u w e f left _ right ihl ihr =>
      intro held
      obtain ⟨before, first⟩ := ihl held
      obtain ⟨after, second⟩ := ihr held
      exact ⟨after, first.join op second⟩
  | apply _ ih =>
      intro held waiting
      obtain ⟨after, operand⟩ := ih held (waiting + 1)
      exact ⟨after, operand.cons (next_unary _) rfl (Nat.add_assoc _ _ _).symm⟩
  | bare _ ih => exact fun held waiting => ⟨waiting, ih held waiting⟩
  | postfixed _ _ ihb ihl =>
      intro held waiting
      rw [Expr.nesting_linked]
      exact (ihb held waiting).append (ihl held waiting)
  | noLinks =>
      exact fun held waiting => ⟨rfl, fun bound short => by simp [Within, Expr.nestingLinks, short]⟩
  | moreLinks _ _ ihh iht =>
      intro held waiting
      exact (ihh held waiting).append (iht held waiting)
  | member means =>
      intro held waiting
      refine ⟨?_, ?_⟩
      · rw [run_cons, next_access means]
        rfl
      · intro bound short
        rw [Within, next_access means]
        simp [Within, Expr.nestingLink, next, short]
  | @method _ _ word u arguments means _ ih =>
      intro held waiting
      have list : CountsAll (opened ⟨held, waiting, true⟩ true) u _ := ih _ rfl _
      have brackets := list.between .openParen .closeParen (Expr.deepest_all arguments) rfl
        fun _ => rfl
      have called := brackets.through (.name word) rfl rfl rfl
      exact (called.through _ (next_access means) rfl rfl).countsBehind rfl
  | @index u key _ ih =>
      intro held waiting
      obtain ⟨after, inner⟩ := ih ((waiting, true) :: held)
      have inner : Counts (opened ⟨held, waiting, true⟩ true) u _ _ := inner
      exact (inner.between .openBracket .closeBracket rfl fun _ => rfl).countsBehind rfl
  | @parenthesized u e _ ih =>
      intro held waiting
      obtain ⟨after, inner⟩ := ih ((waiting, false) :: held)
      have inner : Counts (opened ⟨held, waiting, false⟩ false) u _ _ := inner
      exact inner.between .openParen .closeParen rfl fun _ => rfl
  | @array u items _ ih =>
      intro held waiting
      have list : CountsAll (opened ⟨held, waiting, false⟩ true) u _ := ih _ rfl _
      exact list.between .openBracket .closeBracket (Expr.deepest_all items) rfl fun _ => rfl
  | @object u entries _ ih =>
      intro held waiting
      have list : CountsAll (opened ⟨held, waiting, false⟩ true) u _ := ih _ rfl _
      refine list.between .openBrace .closeBrace ?_ rfl fun _ => rfl
      intro m k
      rw [Expr.nesting, Expr.add_nestingEntries_le, List.forall_mem_map]
  | literal writes =>
      intro held waiting
      refine ⟨next_literal writes, ?_⟩
      intro bound
      simp [Within, next_literal writes, Expr.nesting, steps]
  | @call _ u arguments _ ih =>
      intro held waiting
      have list : CountsAll (opened ⟨held, waiting, true⟩ true) u _ := ih _ rfl _
      have brackets := list.between .openParen .closeParen (Expr.deepest_all arguments) rfl
        fun _ => rfl
      exact brackets.through _ rfl rfl rfl
  | name =>
      intro held waiting
      refine ⟨rfl, ?_⟩
      intro bound
      simp [Within, next, Expr.nesting, steps]
  | entry writes _ ih =>
      intro held
      obtain ⟨after, value⟩ := ih held
      have behind : Counts ⟨held, 0, true⟩ _ _ after :=
        value.through (.delimiter .colon) rfl rfl rfl
      exact ⟨after, behind.through _ (next_key writes) rfl rfl⟩
  | noItems => exact fun nesting _ held => ⟨rfl, fun bound => by simp [Within]⟩
  | someItems _ ih => exact ih
  | trailing _ ih =>
      intro nesting deep held
      have list := ih nesting deep held
      refine ⟨?_, ?_⟩
      · rw [run_append]
        exact list.run
      · intro bound
        rw [within_append, list.within]
        simp [Within, next]
  | last _ ih =>
      intro nesting deep held
      obtain ⟨after, one⟩ := ih.item deep held
      refine ⟨by rw [one.run], ?_⟩
      intro bound
      simp [one.within]
  | more _ _ ihh iht =>
      intro nesting deep held
      obtain ⟨_, first⟩ := ihh.item deep held
      exact CountsAll.cons first (iht nesting deep held)

/-- The pass bounds the nesting of an expression exactly. -/
theorem Derives.nesting_le_iff {u : List Token} {e : Expr} (word : Derives .expression u e)
    (bound : Nat) : e.nesting ≤ bound ↔ Descent.start.Within bound u := by
  obtain ⟨_, counts⟩ := word.counted []
  have within := counts.within bound
  rw [show steps ⟨[], 0, false⟩ = 0 from rfl, Nat.zero_add] at within
  exact within.symm

/-! ## What the limits bound

The pass of `Limits` has no less in front of each bracket than `Descent` has, as long as no bracket
is opened behind an operand that operators still wait for. -/

namespace Token

/-- Whether a token opens a bracket. -/
def opens : Token → Bool
  | delimiter .openParen | delimiter .openBracket | delimiter .openBrace => true
  | _ => false

end Token

namespace Descent

/-- No bracket is opened behind an operand that unary operators wait for. -/
def Keeps (s : Descent) : List Token → Prop
  | [] => True
  | t :: tokens =>
    (t.opens = true → s.afterOperand = true → s.waiting = 0) ∧ (s.next t).Keeps tokens

instance decidableKeeps (s : Descent) : (tokens : List Token) → Decidable (s.Keeps tokens)
  | [] => isTrue trivial
  | t :: tokens =>
    have := decidableKeeps (s.next t) tokens
    inferInstanceAs (Decidable ((_ → _ → _) ∧ _))

/-- Each bracket has no more waiting in front of it than the other pass says. -/
def Covered : List (Nat × Bool) → List Nat → Prop
  | [], [] => True
  | (waiting, _) :: held, waiting' :: held' => waiting ≤ waiting' ∧ Covered held held'
  | _, _ => False

theorem Covered.sum_le {held : List (Nat × Bool)} {held' : List Nat}
    (covered : Covered held held') :
    held.foldr (fun frame n => frame.1 + frame.2.toNat + n) 0 ≤
      held'.length + held'.foldr (· + ·) 0 := by
  induction held generalizing held' with
  | nil => exact Nat.zero_le _
  | cons frame held ih =>
      cases held' with
      | nil => exact covered.elim
      | cons waiting' held' =>
          obtain ⟨le, rest⟩ := covered
          have := ih rest
          have := Bool.toNat_le frame.2
          simp only [List.foldr_cons, List.length_cons]
          omega

/-- The pass is in front of the same token as the one of the limits, and no deeper than these. -/
structure Follows (s : Descent) (p : Limits.State) : Prop where
  /-- The brackets are the same. -/
  held : Covered s.held p.held
  /-- Behind an operand the limits see one too. -/
  after : p.afterOperand = true → s.afterOperand = true
  /-- In front of an operand no less waits than the pass says. -/
  waiting : s.afterOperand = false → s.waiting ≤ p.waiting
  /-- The pass is not too deep. -/
  steps : s.steps ≤ Limits.nesting

theorem follows_start : Follows start .start :=
  ⟨trivial, nofun, fun _ => Nat.le_refl _, Nat.zero_le _⟩

theorem steps_le {s : Descent} {p : Limits.State} (held : Covered s.held p.held)
    (waiting : s.waiting ≤ p.waiting) : s.steps ≤ p.depth :=
  Nat.add_le_add held.sum_le waiting

section
variable {s : Descent} {p : Limits.State}

theorem Follows.opened (follows : Follows s p) (enters : Bool)
    (keeps : s.afterOperand = true → s.waiting = 0)
    (shallow : Limits.State.depth
      { p with held := p.waiting :: p.held, waiting := 0, afterOperand := false } ≤
        Limits.nesting) :
    Follows (s.opened enters)
      { p with held := p.waiting :: p.held, waiting := 0, afterOperand := false } := by
  have le : s.waiting ≤ p.waiting := by
    cases after : s.afterOperand with
    | true => rw [keeps after]; exact Nat.zero_le _
    | false => exact follows.waiting after
  have held : Covered (s.opened enters).held (p.waiting :: p.held) := ⟨le, follows.held⟩
  exact ⟨held, nofun, fun _ => Nat.le_refl _, Nat.le_trans (steps_le held (Nat.le_refl _)) shallow⟩

theorem Follows.closed (follows : Follows s p) :
    Follows s.closed { p with held := p.held.tail, waiting := 0, afterOperand := true } := by
  obtain ⟨held, waiting, afterOperand⟩ := s
  obtain ⟨held', waiting', binary, afterOperand'⟩ := p
  have covered := follows.held
  have steps := follows.steps
  cases held with
  | nil =>
      cases held' with
      | nil => exact ⟨trivial, fun _ => rfl, nofun, Nat.zero_le _⟩
      | cons _ _ => exact covered.elim
  | cons frame held =>
      cases held' with
      | nil => exact covered.elim
      | cons _ _ =>
          refine ⟨covered.2, fun _ => rfl, nofun, ?_⟩
          simp only [Descent.steps, Descent.closed, List.foldr_cons] at steps ⊢
          omega

/-- Where nothing waits any more, the pass is not deeper than before. -/
theorem Follows.dropped (follows : Follows s p) {p' : Limits.State} (same : p'.held = p.held)
    (after : p'.afterOperand = false) :
    Follows { s with waiting := 0, afterOperand := false } p' where
  held := same ▸ follows.held
  after seen := by rw [after] at seen; cases seen
  waiting _ := Nat.zero_le _
  steps := Nat.le_trans (Nat.add_le_add_left (Nat.zero_le _) _) follows.steps

theorem Follows.operator (follows : Follows s p) (symbol : Operator)
    (shallow : (p.next (.operator symbol)).depth ≤ Limits.nesting) :
    Follows (s.next (.operator symbol)) (p.next (.operator symbol)) := by
  have held : (p.next (.operator symbol)).held = p.held := by
    simp only [Limits.State.next]
    split <;> rfl
  have after : (p.next (.operator symbol)).afterOperand = false := by
    simp only [Limits.State.next]
    split
    · rename_i waits
      simpa using (Bool.and_eq_true_iff.mp waits).1
    · rfl
  cases behind : s.afterOperand with
  | true =>
      simp only [Descent.next, behind, if_true]
      split
      · refine ⟨held ▸ follows.held, ?_, ?_, follows.steps⟩
        · intro seen
          rw [after] at seen
          cases seen
        · intro none
          rw [behind] at none
          cases none
      · exact follows.dropped held after
  | false =>
      have before : p.afterOperand = false := by
        cases seen : p.afterOperand with
        | true => rw [← behind, follows.after seen]
        | false => rfl
      cases unary : symbol.unary? with
      | none =>
          have dropped := follows.dropped held after
          simpa [Descent.next, behind, unary] using dropped
      | some op =>
          have le : s.waiting + 1 ≤ p.waiting + 1 := Nat.succ_le_succ (follows.waiting behind)
          have pass : s.next (.operator symbol) = ⟨s.held, s.waiting + 1, false⟩ := by
            simp [Descent.next, behind, unary]
          have limits : p.next (.operator symbol) = { p with waiting := p.waiting + 1 } := by
            simp [Limits.State.next, before, unary]
          rw [limits] at shallow
          rw [pass, limits]
          refine ⟨follows.held, ?_, fun _ => le, ?_⟩
          · intro seen
            rw [before] at seen
            cases seen
          · refine Nat.le_trans ?_ shallow
            apply steps_le
            · exact follows.held
            · exact le

theorem Follows.next (follows : Follows s p) (t : Token)
    (shallow : (p.next t).depth ≤ Limits.nesting)
    (keeps : t.opens = true → s.afterOperand = true → s.waiting = 0) :
    Follows (s.next t) (p.next t) := by
  cases t with
  | delimiter symbol =>
      cases symbol with
      | openParen | openBracket | openBrace => exact follows.opened _ (keeps rfl) shallow
      | closeParen | closeBracket | closeBrace => exact follows.closed
      | comma | colon => exact follows.dropped rfl rfl
  | operator symbol => exact follows.operator symbol shallow
  | _ => exact ⟨follows.held, fun _ => rfl, nofun, follows.steps⟩

/-- Where the limits forget nothing, no operand ends deeper than they allow. -/
theorem Follows.within {s : Descent} {p : Limits.State} {tokens : List Token} {index : Nat}
    (follows : Follows s p) (bounded : Limits.excessFrom? p index tokens = none)
    (keeps : s.Keeps tokens) : s.Within Limits.nesting tokens := by
  induction tokens generalizing s p index with
  | nil => trivial
  | cons t tokens ih =>
      have shallow : (p.next t).depth ≤ Limits.nesting ∧
          Limits.excessFrom? (p.next t) (index + 1) tokens = none := by
        simp only [Limits.excessFrom?] at bounded
        split at bounded
        · cases bounded
        · split at bounded
          · cases bounded
          · exact ⟨by omega, bounded⟩
      have next := follows.next t shallow.1 keeps.1
      exact ⟨fun _ => next.steps, ih next shallow.2 keeps.2⟩

end

end Descent

namespace Expr

/-- The nesting of an accepted expression is what the pass over its tokens says.  So it is within
the limit where the pass is, and it always is where no bracket is opened behind an operand that
unary operators wait for. -/
theorem nesting_le_iff_within (cs : List Char) (e : Expr) (accepted : Expr.ofText cs = .ok e) :
    ∃ all, Token.ofText cs = .ok all ∧
      (∀ bound, e.nesting ≤ bound ↔ Descent.start.Within bound (significantTokens all)) ∧
      (Descent.start.Keeps (significantTokens all) → e.nesting ≤ Limits.nesting) := by
  obtain ⟨all, scanned, bounded, word⟩ := (ofText_ok_iff cs e).mp accepted
  refine ⟨all, scanned, word.nesting_le_iff, ?_⟩
  intro keeps
  exact (word.nesting_le_iff _).mpr (follows_start.within bounded keeps)

/-- An operator inside a call, where none waits in front of the bracket. -/
theorem nesting_le_iff_within_not_call :
    let text := ['f', '(', '!', 'x', ')']
    let e := call "f" [.unary .not (.name "x")]
    Expr.ofText text = .ok e ∧
      ∃ all, Token.ofText text = .ok all ∧
        (∀ bound, e.nesting ≤ bound ↔ Descent.start.Within bound (significantTokens all)) ∧
        Descent.start.Keeps (significantTokens all) ∧ e.nesting ≤ Limits.nesting := by
  intro text e
  have scanned : (Token.ofText text).toOption.map significantTokens =
      some [.name "f", .delimiter .openParen, .operator .not, .name "x",
        .delimiter .closeParen] := by
    decide +kernel
  have parsed : Expr.ofText text = .ok e := rfl
  obtain ⟨all, found, nested, bounded⟩ := nesting_le_iff_within text e parsed
  rw [found] at scanned
  have keeps : Descent.start.Keeps (significantTokens all) := by
    rw [Option.some.inj scanned]
    decide
  exact ⟨parsed, all, found, nested, keeps, bounded keeps⟩

/-- The operator `!` in front of a call with the given argument. -/
def notCall (e : Expr) : Expr := .unary .not (.call "f" [e])

/-- The tokens of `!` in front of a call with the given argument. -/
def notCallTokens (u : List Token) : List Token :=
  .operator .not :: .name "f" :: Token.between .openParen u .closeParen

/-- The text of `!` in front of a call with the given argument. -/
def notCallText (cs : List Char) : List Char := ['!', 'f', '('] ++ cs ++ [')']

theorem derives_notCall {u : List Token} {e : Expr} (word : Derives .expression u e) :
    Derives .expression (notCallTokens u) (notCall e) := by
  have call : Derives .primary (.name "f" :: Token.between .openParen u .closeParen)
      (.call "f" [e]) := .call (.someItems (.last word))
  have operand := Derives.postfixed call .noLinks
  rw [List.append_nil] at operand
  have applied : Derives .unary (notCallTokens u) (notCall e) :=
    @Derives.apply .not _ _ (.bare operand)
  exact applied.expression_of_unary

theorem derives_notCalls (n : Nat) :
    Derives .expression (Nat.repeat notCallTokens n [.name "x"])
      (Nat.repeat notCall n (.name "x")) := by
  induction n with
  | zero => exact (Derives.bare (.postfixed .name .noLinks)).expression_of_unary
  | succ n ih => exact derives_notCall ih

theorem nesting_notCalls (n : Nat) : (Nat.repeat notCall n (.name "x")).nesting = 2 * n := by
  induction n with
  | zero => rfl
  | succ n ih =>
      simp only [Nat.repeat, notCall, nesting, nestingAll, ih]
      omega

/-- The limits see one bracket for each of the calls, and forget the operator in front of it. -/
theorem nesting_exceeds_limit :
    ∃ e, Expr.ofText (Nat.repeat notCallText 33 ['x']) = .ok e ∧ Limits.nesting < e.nesting := by
  have scanned : (Token.ofText (Nat.repeat notCallText 33 ['x'])).toOption.map significantTokens =
      some (Nat.repeat notCallTokens 33 [.name "x"]) := by
    decide +kernel
  have bounded : Limits.excess? (Nat.repeat notCallTokens 33 [.name "x"]) = none := by
    decide +kernel
  refine ⟨Nat.repeat notCall 33 (.name "x"), (ofText_ok_iff _ _).mpr ?_, ?_⟩
  · cases found : Token.ofText (Nat.repeat notCallText 33 ['x']) with
    | error e => simp [found, Except.toOption] at scanned
    | ok all =>
        simp only [found, Except.toOption, Option.map_some, Option.some.injEq] at scanned
        exact ⟨all, rfl, scanned ▸ bounded, scanned ▸ derives_notCalls 33⟩
  · rw [nesting_notCalls]
    decide

end Expr

end Trigger
