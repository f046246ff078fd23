import Trigger.Proofs.Shape.Captures
import Trigger.Proofs.Token.Spelling

/-!
# The top level of a recognized text

`Splits op cs left right` says that `op` stands between `left` and `right` on the top level of `cs`.
`splitTopLevel?` finds the last such place of a balanced text, and it finds one if there is any
(`splitTopLevel?_eq_some`, `splitTopLevel?_isSome`).  So the text to the right of the place has no
such place, and a text without one has none in its parts.

The pass goes over the pieces of a pattern as it goes over their texts, so the range of distances
has its `&&` on the top level.
-/

namespace Trigger.Text

namespace Nesting

theorem after?_append (l : Nesting) (cs ds : List Char) :
    l.after? (cs ++ ds) = (l.after? cs).bind (·.after? ds) := by
  induction cs generalizing l with
  | nil => rfl
  | cons c cs ih =>
      rw [List.cons_append, after?, after?]
      cases l.next? c with
      | none => rfl
      | some next => exact ih next

/-- Whether a character has no part in brackets and strings. -/
def isNeutral (c : Char) : Bool := !isQuote c && !opens c && !closes c

theorem after?_of_neutral {l : Nesting} (outside : l.quote = none) {cs : List Char}
    (neutral : cs.all isNeutral = true) : l.after? cs = some l := by
  induction cs with
  | nil => rfl
  | cons c cs ih =>
      obtain ⟨first, rest⟩ := Bool.and_eq_true_iff.mp neutral
      simp only [isNeutral, Bool.and_eq_true, Bool.not_eq_true'] at first
      obtain ⟨⟨quote, opens⟩, closes⟩ := first
      have next : l.next? c = some l := by simp [next?, outside, quote, opens, closes]
      rw [after?, next]
      exact ih rest

/-- Outside strings nothing is escaped. -/
def Sane (l : Nesting) : Prop := l.quote = none → l.escaped = false

theorem sane_start : start.Sane := fun _ => rfl

theorem Sane.next? {l l' : Nesting} {c : Char} (sane : l.Sane) (next : l.next? c = some l') :
    l'.Sane := by
  unfold Nesting.next? at next
  cases quoted : l.quote with
  | none =>
      have unescaped := sane quoted
      grind [Nesting.Sane]
  | some q => grind [Nesting.Sane]

theorem Sane.after? {l l' : Nesting} {cs : List Char} (sane : l.Sane)
    (after : l.after? cs = some l') : l'.Sane := by
  induction cs generalizing l with
  | nil =>
      cases after
      exact sane
  | cons c cs ih =>
      obtain ⟨next, first, rest⟩ := Option.bind_eq_some_iff.mp after
      exact ih (sane.next? first) rest

theorem Sane.eq_start {l : Nesting} (sane : l.Sane) (outside : l.quote = none)
    (top : l.depth = 0) : l = start := by
  obtain ⟨depth, quote, escaped⟩ := l
  cases outside
  cases top
  cases sane rfl
  rfl

/-- On the top level the pass knows what it knows at the start. -/
theorem Sane.isTop_iff {l : Nesting} (sane : l.Sane) {c : Char} (neutral : isNeutral c = true) :
    l.isTop c = true ↔ l = start := by
  simp only [isNeutral, Bool.and_eq_true, Bool.not_eq_true'] at neutral
  obtain ⟨⟨quote, opens⟩, closes⟩ := neutral
  constructor
  · intro top
    simp only [isTop, Bool.and_eq_true, Option.isNone_iff_eq_none, decide_eq_true_eq] at top
    obtain ⟨⟨⟨⟨outside, top⟩, -⟩, -⟩, -⟩ := top
    exact sane.eq_start outside top
  · rintro rfl
    simp [isTop, start, quote, opens, closes]

end Nesting

open Nesting Lexeme

theorem isBalanced_iff {cs : List Char} : isBalanced cs = true ↔ start.after? cs = some start := by
  unfold isBalanced
  cases after : start.after? cs with
  | none => simp
  | some l =>
      rw [Option.any_some, Option.some.injEq]
      constructor
      · intro closed
        simp only [isClosed, Bool.and_eq_true, decide_eq_true_eq,
          Option.isNone_iff_eq_none] at closed
        exact (sane_start.after? after).eq_start closed.2 closed.1
      · rintro rfl
        rfl

/-! ## The last place of the top level -/

/-- An operator stands on the top level, between two texts. -/
def Splits (op cs left right : List Char) : Prop :=
  cs = left ++ op ++ right ∧ start.after? left = some start

/-- The last split whose first part is shorter than a bound, with its first part backwards. -/
def LastSplit (op cs : List Char) (bound : Nat) : Option (List Char × List Char) → Prop
  | none => ∀ left right, Splits op cs left right → bound ≤ left.length
  | some (before, rest) =>
    Splits op cs before.reverse rest ∧
      ∀ left right, Splits op cs left right → left.length < bound → left.length ≤ before.length

variable {op : List Char}

section
variable (nonempty : op ≠ []) (neutral : op.all isNeutral = true)
include nonempty neutral

/-- The operator is looked for where a character is on the top level. -/
theorem splits_here_iff {before cs right : List Char} {l : Nesting} {c : Char}
    (after : start.after? before.reverse = some l) :
    (if l.isTop c then op.isPrefixOf? (c :: cs) else none) = some right ↔
      Splits op (before.reverse ++ c :: cs) before.reverse right := by
  rw [Option.ite_none_right_eq_some, isPrefixOf?_eq_some_iff, Splits, after, Option.some.injEq,
    List.append_assoc, List.append_cancel_left_eq, and_comm]
  refine and_congr_right fun eq => ?_
  cases op with
  | nil => contradiction
  | cons d op =>
      cases eq
      exact (sane_start.after? after).isTop_iff (Bool.and_eq_true_iff.mp neutral).1

theorem LastSplit.next {before cs : List Char} {l : Nesting} {c : Char}
    {found : Option (List Char × List Char)} (after : start.after? before.reverse = some l)
    (last : LastSplit op (before.reverse ++ c :: cs) before.length found) :
    LastSplit op (before.reverse ++ c :: cs) (before.length + 1)
      (match if l.isTop c then op.isPrefixOf? (c :: cs) else none with
      | some rest => some (before, rest)
      | none => found) := by
  cases here : if l.isTop c then op.isPrefixOf? (c :: cs) else none with
  | some rest =>
      refine ⟨(splits_here_iff nonempty neutral after).mp here, ?_⟩
      intro left right _ shorter
      omega
  | none =>
      have elsewhere : ∀ left right, Splits op (before.reverse ++ c :: cs) left right →
          left.length ≠ before.length := by
        rintro left right splits same
        obtain ⟨eq, top⟩ := splits
        rw [List.append_assoc] at eq
        obtain ⟨rfl, -⟩ := List.append_inj eq (by simp [same])
        have found := (splits_here_iff nonempty neutral after).mpr
          ⟨by rw [eq, List.append_assoc], top⟩
        rw [here] at found
        cases found
      cases found with
      | none =>
          intro left right splits
          have apart := elsewhere left right splits
          have bound := last left right splits
          omega
      | some pair =>
          refine ⟨last.1, ?_⟩
          intro left right splits shorter
          have apart := elsewhere left right splits
          exact last.2 left right splits (by omega)

theorem splitFrom?_spec {before cs : List Char} {l : Nesting}
    {found : Option (List Char × List Char)} (after : start.after? before.reverse = some l)
    (last : LastSplit op (before.reverse ++ cs) before.length found) :
    if isBalanced (before.reverse ++ cs) then
      LastSplit op (before.reverse ++ cs) (before.reverse ++ cs).length
        (splitFrom? op l before found cs)
    else splitFrom? op l before found cs = none := by
  induction cs generalizing before l found with
  | nil =>
      simp only [List.append_nil, isBalanced, after, Option.any_some, splitFrom?] at last ⊢
      split
      · simpa using last
      · rfl
  | cons c cs ih =>
      have next := last.next nonempty neutral after
      cases known : l.next? c with
      | none =>
          have unbalanced : isBalanced (before.reverse ++ c :: cs) = false := by
            simp [isBalanced, after?_append, after, after?, known]
          simp [unbalanced, splitFrom?, known]
      | some l' =>
          have step : start.after? (c :: before).reverse = some l' := by
            simp [after?_append, after, after?, known]
          have eq : (c :: before).reverse ++ cs = before.reverse ++ c :: cs := by simp
          rw [← eq] at next
          have spec := ih step next
          rw [eq] at spec
          simp only [splitFrom?, known, Option.bind_some]
          exact spec

theorem splitFrom?_start (cs : List Char) :
    if isBalanced cs then LastSplit op cs cs.length (splitFrom? op start [] none cs)
    else splitFrom? op start [] none cs = none := by
  have last : LastSplit op cs 0 none := fun _ _ _ => Nat.zero_le _
  have after : start.after? ([] : List Char).reverse = some start := rfl
  exact splitFrom?_spec nonempty neutral after last

omit neutral in
theorem Splits.length_lt {cs left right : List Char} (splits : Splits op cs left right) :
    left.length < cs.length := by
  have pos := List.length_pos_iff.mpr nonempty
  rw [splits.1, List.length_append, List.length_append]
  omega

/-- The split of a text is at the last place of the top level where the operator stands. -/
theorem splitTopLevel?_eq_some {cs left right : List Char}
    (found : splitTopLevel? op cs = some (left, right)) :
    isBalanced cs = true ∧ Splits op cs left right ∧
      ∀ left' right', Splits op cs left' right' → left'.length ≤ left.length := by
  obtain ⟨⟨before, rest⟩, found, same⟩ := Option.map_eq_some_iff.mp found
  cases same
  have spec := splitFrom?_start nonempty neutral cs
  rw [found] at spec
  split at spec
  · rename_i balanced
    refine ⟨balanced, spec.1, ?_⟩
    intro left' right' splits
    rw [List.length_reverse]
    exact spec.2 left' right' splits (splits.length_lt nonempty)
  · cases spec

/-- A balanced text is split if the operator stands on the top level. -/
theorem splitTopLevel?_isSome {cs left right : List Char} (balanced : isBalanced cs = true)
    (splits : Splits op cs left right) : (splitTopLevel? op cs).isSome = true := by
  have spec := splitFrom?_start nonempty neutral cs
  rw [if_pos balanced] at spec
  rw [splitTopLevel?, Option.isSome_map]
  cases found : splitFrom? op start [] none cs with
  | some pair => rfl
  | none =>
      rw [found] at spec
      have bound := spec left right splits
      have short := splits.length_lt nonempty
      omega

/-- To the right of the last place there is none. -/
theorem splitTopLevel?_right {cs left right : List Char}
    (found : splitTopLevel? op cs = some (left, right)) : splitTopLevel? op right = none := by
  obtain ⟨-, ⟨eq, top⟩, last⟩ := splitTopLevel?_eq_some nonempty neutral found
  cases again : splitTopLevel? op right with
  | none => rfl
  | some pair =>
      obtain ⟨-, ⟨eq', top'⟩, -⟩ := splitTopLevel?_eq_some nonempty neutral again
      have joined : start.after? (left ++ op ++ pair.1) = some start := by
        simp [after?_append, top, @after?_of_neutral start rfl _ neutral, top']
      have later := last (left ++ op ++ pair.1) pair.2 ⟨by rw [eq, eq']; simp, joined⟩
      have pos := List.length_pos_iff.mpr nonempty
      simp only [List.length_append] at later
      omega

/-- Where a text is split by another operator, but not by this one, its parts are not either. -/
theorem splitTopLevel?_parts {other cs left right : List Char} (nonempty' : other ≠ [])
    (neutral' : other.all isNeutral = true) (found : splitTopLevel? other cs = some (left, right))
    (unsplit : splitTopLevel? op cs = none) :
    splitTopLevel? op left = none ∧ splitTopLevel? op right = none := by
  obtain ⟨balanced, ⟨eq, top⟩, -⟩ := splitTopLevel?_eq_some nonempty' neutral' found
  have nowhere : ∀ left' right', ¬ Splits op cs left' right' := by
    intro left' right' splits
    have split := splitTopLevel?_isSome nonempty neutral balanced splits
    rw [unsplit] at split
    cases split
  constructor
  · cases found : splitTopLevel? op left with
    | none => rfl
    | some pair =>
        obtain ⟨-, ⟨eq', top'⟩, -⟩ := splitTopLevel?_eq_some nonempty neutral found
        exact absurd ⟨by rw [eq, eq']; simp, top'⟩ (nowhere pair.1 (pair.2 ++ other ++ right))
  · cases found : splitTopLevel? op right with
    | none => rfl
    | some pair =>
        obtain ⟨-, ⟨eq', top'⟩, -⟩ := splitTopLevel?_eq_some nonempty neutral found
        refine absurd ⟨by rw [eq, eq']; simp, ?_⟩ (nowhere (left ++ other ++ pair.1) pair.2)
        simp [after?_append, top, @after?_of_neutral start rfl _ neutral', top']

end

/-! ## Patterns -/

/-- The characters that have a part in brackets and strings. -/
def brackets : List Char := ['"', '\'', '(', '[', '\x7b', ')', ']', '\x7d']

theorem isNeutral_of_not_mem {c : Char} (other : c ∉ brackets) : isNeutral c = true := by
  simpa [brackets, isNeutral, isQuote, opens, closes, and_assoc] using other

theorem isNeutral_of_isBlank {c : Char} (blank : isBlank c = true) : isNeutral c = true := by
  have marked : brackets.all marks.contains = true := by decide
  refine isNeutral_of_not_mem fun mem => (of_isBlank blank).1 ?_
  exact List.contains_iff_mem.mp (List.all_eq_true.mp marked c mem)

/-- Blanks say nothing about brackets and strings. -/
theorem all_isNeutral_of_isBlank {blanks : List Char} (blank : blanks.all isBlank = true) :
    blanks.all isNeutral = true :=
  List.all_eq_true.mpr fun c mem => isNeutral_of_isBlank (List.all_eq_true.mp blank c mem)

theorem exists_blanks (cs : List Char) :
    ∃ blanks, cs = blanks ++ trimStart cs ∧ blanks.all isNeutral = true := by
  obtain ⟨blank, eq⟩ := all_takeWhile_append (p := isBlank) cs
  exact ⟨_, eq, all_isNeutral_of_isBlank blank⟩

theorem all_isNeutral_of_isDigit {cs : List Char} (digits : cs.all Char.isDigit = true) :
    cs.all isNeutral = true := by
  have none : brackets.all (!·.isDigit) = true := by decide
  refine List.all_eq_true.mpr fun c mem => isNeutral_of_not_mem fun bracket => ?_
  have here := List.all_eq_true.mp none c bracket
  rw [List.all_eq_true.mp digits c mem] at here
  cases here

/-- Nor does a number. -/
theorem all_isNeutral_digitsSource {whole fraction : List Char}
    (digits : whole.all Char.isDigit = true) (digits' : fraction.all Char.isDigit = true) :
    (digitsSource whole fraction).all isNeutral = true := by
  have neutral := all_isNeutral_of_isDigit digits
  cases fraction with
  | nil => exact neutral
  | cons d fraction =>
      rw [digitsSource_of_ne_nil _ (List.cons_ne_nil _ _), List.all_append, neutral, List.all_cons,
        all_isNeutral_of_isDigit digits']
      rfl

/-- A text that a piece matches. -/
inductive Fits : Piece → List Char → Prop
  | text (expected : List Char) : Fits (.text expected) expected
  | access {symbol : Operator} {optional : Bool} :
      symbol.access? = some optional → Fits .access symbol.text
  | ordering {ops : List BinaryOp} {op : BinaryOp} : op ∈ ops → Fits (.ordering ops) op.symbol.text
  | number {whole fraction : List Char} :
      whole ≠ [] → whole.all Char.isDigit = true → fraction.all Char.isDigit = true →
      Fits .number (digitsSource whole fraction)

/-- Behind the blanks of a text that a pattern matches stands a text of the first piece. -/
theorem captures?_cons_inv {p : Piece} {ps : Pattern} {cs : List Char} {c : Captures}
    (found : Pattern.captures? (p :: ps) cs = some c) :
    ∃ piece rest c', trimStart cs = piece ++ rest ∧ Fits p piece ∧
      Pattern.captures? ps rest = some c' := by
  cases p with
  | text expected =>
      obtain ⟨rest, isFirst, found⟩ := Option.bind_eq_some_iff.mp found
      exact ⟨expected, rest, c, isPrefixOf?_eq_some_iff.mp isFirst, .text expected, found⟩
  | access =>
      obtain ⟨symbol, optional, rest, access, eq, found⟩ := Pattern.access_of_captures? found
      exact ⟨_, rest, c, eq, .access access, found⟩
  | ordering ops =>
      obtain ⟨⟨op, rest⟩, isFirst, more⟩ := Option.bind_eq_some_iff.mp found
      obtain ⟨c', found, -⟩ := Option.map_eq_some_iff.mp more
      obtain ⟨mem, eq⟩ := Pattern.opInFront?_eq_some isFirst
      exact ⟨_, rest, c', eq, .ordering mem, found⟩
  | number =>
      obtain ⟨⟨n, rest⟩, isFirst, more⟩ := Option.bind_eq_some_iff.mp found
      obtain ⟨c', found, -⟩ := Option.map_eq_some_iff.mp more
      obtain ⟨⟨whole, fraction, _⟩, digits, same⟩ := Option.map_eq_some_iff.mp isFirst
      cases same
      obtain ⟨nonempty, all, all', eq⟩ := digits?_eq_some digits
      exact ⟨_, _, c', eq, .number nonempty all all', found⟩

/-- The pass over the pieces of a pattern, which must not have a quote in them. -/
def afterPattern? (l : Nesting) : Pattern → Option Nesting
  | [] => some l
  | .text cs :: ps =>
    if cs.all (!isQuote ·) then (l.after? cs).bind (afterPattern? · ps) else none
  | _ :: ps => afterPattern? l ps

theorem quote_after? {l l' : Nesting} {cs : List Char} (outside : l.quote = none)
    (plain : cs.all (!isQuote ·) = true) (after : l.after? cs = some l') : l'.quote = none := by
  induction cs generalizing l with
  | nil =>
      cases after
      exact outside
  | cons c cs ih =>
      obtain ⟨first, rest⟩ := Bool.and_eq_true_iff.mp plain
      obtain ⟨next, step, behind⟩ := Option.bind_eq_some_iff.mp after
      refine ih ?_ rest behind
      unfold Nesting.next? at step
      grind

/-- The pass over a text goes as over the pieces of a pattern in front of it. -/
theorem after?_of_captures? (ps qs : Pattern) {cs : List Char} {c : Captures} {l l' : Nesting}
    (outside : l.quote = none) (passes : afterPattern? l ps = some l')
    (found : Pattern.captures? (ps ++ qs) cs = some c) :
    ∃ front rest c', cs = front ++ rest ∧ l.after? front = some l' ∧
      Pattern.captures? qs rest = some c' := by
  induction ps generalizing cs c l with
  | nil =>
      cases passes
      exact ⟨[], cs, c, rfl, rfl, found⟩
  | cons p ps ih =>
      obtain ⟨piece, rest, c', first, fits, found⟩ := captures?_cons_inv found
      obtain ⟨next, step, outside', passes⟩ : ∃ next, l.after? piece = some next ∧
          next.quote = none ∧ afterPattern? next ps = some l' := by
        cases fits with
        | text expected =>
            obtain ⟨plain, passes⟩ := Option.ite_none_right_eq_some.mp passes
            obtain ⟨next, step, passes⟩ := Option.bind_eq_some_iff.mp passes
            exact ⟨next, step, quote_after? outside plain step, passes⟩
        | @access symbol _ _ =>
            have neutral : symbol.text.all isNeutral = true := by cases symbol <;> decide
            exact ⟨l, after?_of_neutral outside neutral, outside, passes⟩
        | @ordering _ op _ =>
            have neutral : op.symbol.text.all isNeutral = true := by cases op <;> decide
            exact ⟨l, after?_of_neutral outside neutral, outside, passes⟩
        | number _ digits digits' =>
            have neutral := all_isNeutral_digitsSource digits digits'
            exact ⟨l, after?_of_neutral outside neutral, outside, passes⟩
      obtain ⟨blanks, eq, neutral⟩ := exists_blanks cs
      obtain ⟨front, rest, c', rfl, after, found⟩ := ih outside' passes found
      refine ⟨blanks ++ piece ++ front, rest, c', by rw [eq, first]; simp, ?_, found⟩
      simp only [after?_append, after?_of_neutral outside neutral, Option.bind_some, step, after]

theorem afterPattern?_distanceBy (ops : List BinaryOp) :
    afterPattern? start (Pattern.distanceBy ops) = some start := rfl

/-- The range of distances has its operator on the top level. -/
theorem splitTopLevel?_of_distanceRange {cs : List Char} {c : Captures}
    (found : Pattern.distanceRange.captures? cs = some c) :
    (splitTopLevel? Operator.and.text cs).isSome = true := by
  rw [Pattern.distanceRange_eq] at found
  obtain ⟨left, behind, _, rfl, top, found⟩ :=
    after?_of_captures? _ _ rfl (afterPattern?_distanceBy _) found
  obtain ⟨rest, isFirst, found⟩ := Option.bind_eq_some_iff.mp found
  rw [← List.append_nil (Pattern.distanceBy _)] at found
  obtain ⟨right, after, _, rfl, top', found⟩ :=
    after?_of_captures? _ _ rfl (afterPattern?_distanceBy _) found
  obtain ⟨blanks, eq, neutral⟩ := exists_blanks behind
  obtain ⟨blanks', eq', neutral'⟩ := exists_blanks after
  rw [isPrefixOf?_eq_some_iff.mp isFirst] at eq
  rw [List.isEmpty_iff.mp (Option.ite_none_right_eq_some.mp found).1, List.append_nil] at eq'
  subst eq eq'
  have front : start.after? (left ++ blanks) = some start := by
    rw [after?_append, top, Option.bind_some, after?_of_neutral rfl neutral]
  have back : start.after? (right ++ after) = some start := by
    rw [after?_append, top', Option.bind_some, after?_of_neutral rfl neutral']
  have operator : start.after? Operator.and.text = some start := rfl
  have assoc : left ++ (blanks ++ ("&&".toList ++ (right ++ after))) =
      left ++ blanks ++ Operator.and.text ++ (right ++ after) := by
    simp [Operator.text]
  have balanced : isBalanced (left ++ blanks ++ Operator.and.text ++ (right ++ after)) = true := by
    rw [isBalanced_iff, after?_append, after?_append, front, Option.bind_some, operator,
      Option.bind_some, back]
  rw [assoc]
  exact splitTopLevel?_isSome (by decide) (by decide) balanced ⟨rfl, front⟩

/-! ## Parentheses -/

theorem trimStart_eq_nil {blanks : List Char} (blank : blanks.all isBlank = true) :
    trimStart blanks = [] := by
  rw [trimStart, ← List.append_nil blanks,
    List.dropWhile_append_of_pos (List.all_eq_true.mp blank)]
  rfl

theorem trimEnd_append (cs : List Char) :
    ∃ blanks, cs = trimEnd cs ++ blanks ∧ trimStart blanks = [] := by
  refine ⟨(cs.reverse.takeWhile isBlank).reverse, ?_, ?_⟩
  · rw [trimEnd, ← List.reverse_append, List.takeWhile_append_dropWhile, List.reverse_reverse]
  · refine trimStart_eq_nil ?_
    rw [List.all_reverse]
    exact List.all_takeWhile

/-- The text inside parentheses that hold everything but blanks. -/
theorem stripParens?_eq_some {cs inner : List Char} (found : stripParens? cs = some inner) :
    ∃ blanks, trimStart cs = '(' :: (inner ++ ')' :: blanks) ∧ trimStart blanks = [] := by
  obtain ⟨blanks, eq, blank⟩ := trimEnd_append (trimStart cs)
  unfold stripParens? trim at found
  split at found
  · rename_i rest trimmed
    rw [Option.ite_none_right_eq_some, Option.some.injEq, Bool.and_eq_true,
      decide_eq_true_eq] at found
    obtain ⟨⟨last, -⟩, rfl⟩ := found
    obtain ⟨inner, rfl⟩ := List.getLast?_eq_some_iff.mp last
    refine ⟨blanks, ?_, blank⟩
    rw [eq, trimmed, List.dropLast_concat]
    simp
  · cases found

end Trigger.Text
