import Mathlib.Data.List.Chain
import Trigger.Proofs.Expr.Exact

/-!
# Operators and their operands

In the tokens of an expression an operand starts behind each operator, unless the operator is an
access (`Derives.complete`).  So some operators never stand next to each other.
-/

namespace Trigger

open Token (between startsExpression)

namespace Token

/-- What may stand behind a token: an operand if this is an operator and no access. -/
def Precedes (t t' : Token) : Prop :=
  ∀ symbol, t = .operator symbol → symbol.access? = none → t'.startsExpression = true

end Token

/-- Tokens in which each operator has its operand. -/
structure Complete (u : List Token) : Prop where
  chain : u.IsChain Token.Precedes
  last : ∀ t ∈ u.getLast?, ∀ symbol, t ≠ .operator symbol

namespace Complete

variable {u w : List Token} {t : Token}

theorem nil : Complete [] := ⟨.nil, nofun⟩

theorem single (other : ∀ symbol, t ≠ .operator symbol) : Complete [t] :=
  ⟨List.isChain_singleton t, by rintro _ ⟨⟩; exact other⟩

theorem delimiter (symbol : Delimiter) : Complete [.delimiter symbol] := single nofun

theorem name (word : String) : Complete [.name word] := single nofun

theorem append (left : Complete u) (right : Complete w) : Complete (u ++ w) where
  chain := List.isChain_append.mpr ⟨left.chain, right.chain,
    fun t mem _ _ symbol eq => absurd eq (left.last t mem symbol)⟩
  last := by
    intro t mem
    rw [List.getLast?_append, Option.mem_def, Option.or_eq_some_iff] at mem
    rcases mem with mem | ⟨-, mem⟩
    · exact right.last t mem
    · exact left.last t mem

/-- A token in front of what may stand behind it. -/
theorem cons {t' : Token} (precedes : t.Precedes t') (behind : Complete (t' :: u)) :
    Complete (t :: t' :: u) where
  chain := List.isChain_cons_cons.mpr ⟨precedes, behind.chain⟩
  last := behind.last

/-- An operator in front of its operand. -/
theorem operator {symbol : Operator} (operand : Complete u)
    (starts : ∃ t w, u = t :: w ∧ t.startsExpression = true) :
    Complete (.operator symbol :: u) := by
  obtain ⟨t, w, rfl, starts⟩ := starts
  exact operand.cons fun _ _ _ => starts

theorem between (left right : Delimiter) (inner : Complete u) :
    Complete (between left u right) :=
  (delimiter left).append (inner.append (delimiter right))

/-- An access in front of the name of a member. -/
theorem member {symbol : Operator} {optional : Bool} (means : symbol.access? = some optional)
    (word : String) : Complete [.operator symbol, .name word] :=
  (name word).cons fun other eq none => by
    cases eq
    rw [means] at none
    cases none

end Complete

/-- In a phrase each operator has its operand. -/
theorem Derives.complete {p : Phrase} {u : List Token} {v : p.Value} (word : Derives p u v) :
    Complete u := by
  induction word with
  | expression _ ih | operand _ ih | tighter _ ih | bare _ ih => exact ih
  | someItems _ ih | last _ ih => exact ih
  | join _ _ operand ihl ihr => exact ihl.append (ihr.operator (startsIn_binary _ _ _ operand))
  | apply operand ih => exact ih.operator (startsIn_unary _ _ operand)
  | postfixed _ _ ihb ihl => exact ihb.append ihl
  | noLinks | noItems => exact .nil
  | moreLinks _ _ ihh iht => exact ihh.append iht
  | member means => exact .member means _
  | method means _ ih => exact (Complete.member means _).append (ih.between _ _)
  | index _ ih | parenthesized _ ih | array _ ih | object _ ih => exact ih.between _ _
  | literal writes => exact .single fun symbol eq => by rw [eq] at writes; cases writes
  | call _ ih => exact (Complete.name _).append (ih.between _ _)
  | name => exact .name _
  | entry writes _ ih =>
      refine (Complete.single fun symbol eq => ?_).append ((Complete.delimiter _).append ih)
      rw [eq] at writes
      cases writes
  | trailing _ ih => exact ih.append (.delimiter _)
  | more _ _ ihh iht => exact ihh.append ((Complete.delimiter _).append iht)

end Trigger
