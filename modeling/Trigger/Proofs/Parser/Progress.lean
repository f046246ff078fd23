import Trigger.Proofs.Parser.Ending

/-!
# Parsers that make progress

A parser makes progress if it reads at least one item whenever it accepts.  Whether it does can be
seen from its form, as long as the rules that it calls do: a part that reads an item is enough for
parts that stand one after the other, and all alternatives have to read one (`Parser.progresses`).
In a grammar whose bodies all have this form every such parser makes progress (`Ends.beyond`).

`Parser.EachRepeated` collects the parts that a parser repeats.  A repetition stops only because its
parts make progress.
-/

namespace Trigger

namespace Parser

variable {τ : Type} {ρ : Type → Type}

/-- Whether the form of the parser shows that it makes progress, where all the rules do. -/
def progresses {α : Type} : Parser τ ρ α → Bool
  | equal _ | satisfy _ | never | call _ => true
  | many _ | separated _ _ | optional _ => false
  | orElse first second => first.progresses && second.progresses
  | map _ parser | within _ parser => parser.progresses
  | pair first second | preceded first second => first.progresses || second.progresses
  | triple first second third => first.progresses || second.progresses || third.progresses
  | delimited left middle right => left.progresses || middle.progresses || right.progresses

/-- Every part that is repeated inside the parser has the property.  The parts of a list are its
items and its separators. -/
def EachRepeated (P : {β : Type} → Parser τ ρ β → Prop) {α : Type} : Parser τ ρ α → Prop
  | equal _ | satisfy _ | never | call _ => True
  | many parser => P parser ∧ parser.EachRepeated P
  | separated item separator =>
    P item ∧ P separator ∧ item.EachRepeated P ∧ separator.EachRepeated P
  | map _ parser | within _ parser | optional parser => parser.EachRepeated P
  | orElse first second | preceded first second => first.EachRepeated P ∧ second.EachRepeated P
  | pair first second => first.EachRepeated P ∧ second.EachRepeated P
  | triple first second third =>
    first.EachRepeated P ∧ second.EachRepeated P ∧ third.EachRepeated P
  | delimited left middle right =>
    left.EachRepeated P ∧ middle.EachRepeated P ∧ right.EachRepeated P

theorem EachRepeated.mono {P Q : {β : Type} → Parser τ ρ β → Prop}
    (imp : ∀ {β : Type} (part : Parser τ ρ β), P part → Q part) {α : Type} {parser : Parser τ ρ α}
    (each : parser.EachRepeated P) : parser.EachRepeated Q := by
  induction parser with
  | equal | satisfy | never | call => trivial
  | many _ ih => exact ⟨imp _ each.1, ih each.2⟩
  | separated _ _ ih ih' =>
      obtain ⟨item, separator, inItem, inSeparator⟩ := each
      exact ⟨imp _ item, imp _ separator, ih inItem, ih' inSeparator⟩
  | map _ _ ih | within _ _ ih | optional _ ih => exact ih each
  | orElse _ _ ih ih' | preceded _ _ ih ih' | pair _ _ ih ih' => exact each.imp ih ih'
  | triple _ _ _ ih ih' ih'' | delimited _ _ _ ih ih' ih'' =>
      exact each.imp ih (And.imp ih' ih'')

end Parser

/-- What is read goes beyond a place. -/
def Ending.Beyond {α : Type} (place : Nat) : Ending α → Prop
  | success _ q => place < q
  | failure _ => True

theorem Ending.beyond_map {α β : Type} {f : α → β} {ending : Ending α} {place : Nat} :
    (ending.map f).Beyond place ↔ ending.Beyond place := by
  cases ending <;> rfl

theorem Ending.beyond_within {α : Type} {part : String} {ending : Ending α} {place : Nat} :
    (ending.within part).Beyond place ↔ ending.Beyond place := by
  cases ending <;> rfl

/-- Where something is read before, it goes beyond the place in front. -/
theorem Ending.Beyond.of_le {α : Type} {ending : Ending α} {p q : Nat} (beyond : ending.Beyond q)
    (le : p ≤ q) : ending.Beyond p := by
  cases ending with
  | success _ _ => exact Nat.lt_of_le_of_lt le beyond
  | failure _ => trivial

theorem Ending.Inside.beyond {α : Type} {ending : Ending α} {p q length : Nat}
    (inside : ending.Inside q length) (lt : p < q) : ending.Beyond p := by
  cases ending with
  | success _ _ => exact Nat.lt_of_lt_of_le lt inside.1
  | failure _ => trivial

namespace Grammar

variable {τ : Type} [Written τ] {g : Grammar τ} {input : List τ}

/-- A parser makes progress if its form and those of the bodies say so. -/
theorem Ends.beyond (bodies : ∀ {α : Type} (rule : g.Rule α), (g.body rule).progresses = true)
    {parser : Parser τ g.Rule α} {p : Nat} {ending : Ending α} (ends : g.Ends input parser p ending)
    (progresses : parser.progresses = true) : ending.Beyond p := by
  induction ends with
  | equal | satisfied => exact Nat.lt_succ_self _
  | other | equalBehind | unsatisfied | satisfyBehind | never | noPair => trivial
  | first _ here => exact here (Bool.and_eq_true_iff.mp progresses).1
  | second _ _ _ here => exact here (Bool.and_eq_true_iff.mp progresses).2
  | map _ here => exact Ending.beyond_map.mpr (here progresses)
  | within _ here => exact Ending.beyond_within.mpr (here progresses)
  | more | idle | noMore | noItem | lastItem | nextItem | present | missing => cases progresses
  | pair first second here behind =>
      refine Ending.beyond_map.mpr ?_
      rcases Bool.or_eq_true_iff.mp progresses with reads | reads
      · exact second.inside.beyond (here reads)
      · exact (behind reads).of_le first.inside.1
  | triple _ here => exact here ((Bool.or_assoc ..).symm.trans progresses)
  | preceded _ here | delimited _ here => exact Ending.beyond_map.mpr (here progresses)
  | call _ here => exact here (bodies _)

end Grammar

end Trigger
