import Trigger.Proofs.Expr.Excess
import Trigger.Proofs.Expr.Operands
import Trigger.Proofs.Token.Separators

/-!
# A comment behind an expression

A line comment is put behind a text that writes an expression.  The text is cut into the same tokens
as before, since each of them stops in front of a blank, and then the comment is opened; or it is
opened sooner, where a line comment at the end of the text goes on into the new one
(`scans_comment`).

What is opened is a comment up to the end of a line, and there is none if a carriage return stands
alone in the line.  Then the two marks are operators, and the tokens write the expression no longer
(`ofText_comment_iff`).
-/

namespace Trigger

open Lexeme

/-! ## Opening a comment -/

theorem atLineEnd_cons (c : Char) (cs : List Char) :
    atLineEnd (c :: cs) = (c = '\n' || c = '\r' && cs.head? = some '\n') := by
  cases cs with
  | nil => unfold atLineEnd; split <;> simp_all
  | cons d cs => unfold atLineEnd; split <;> simp_all

/-- The end of a line is seen from what there is of the text, also with a blank behind it. -/
theorem atLineEnd_append_blank {cs : List Char} (nonempty : cs ≠ []) (tail : List Char) :
    atLineEnd (cs ++ ' ' :: tail) = atLineEnd cs := by
  cases cs with
  | nil => contradiction
  | cons c cs =>
      rw [List.cons_append, atLineEnd_cons, atLineEnd_cons]
      cases cs with
      | nil => simp
      | cons d cs => rfl

/-- Whether a line comment that is opened in front of the text ends with a line. -/
def endsComment (cs : List Char) : Bool := atLineEnd (cs.dropWhile (!endsLine ·))

/-- Marks that open no comment are operators. -/
theorem first?_slashes {cs : List Char} (endless : endsComment cs = false) :
    first? ('/' :: '/' :: cs) = some ⟨.operator .divide, ['/'], '/' :: cs⟩ := by
  have block : blockComment? ('/' :: '/' :: cs) = none := rfl
  have line : lineComment? ('/' :: '/' :: cs) = none := if_neg (Bool.eq_false_iff.mp endless)
  have comment : comment? ('/' :: '/' :: cs) = none := by rw [comment?, block, line]; rfl
  exact first?_of_operator? rfl rfl comment rfl rfl

theorem endsComment_of_first? {cs : List Char}
    (found : first? ('/' :: '/' :: cs) = some ⟨.operator .divide, ['/'], '/' :: cs⟩) :
    endsComment cs = false := by
  cases ends : endsComment cs with
  | false => rfl
  | true =>
      have line : lineComment? ('/' :: '/' :: cs) = some _ := if_pos ends
      have block : blockComment? ('/' :: '/' :: cs) = none := rfl
      have comment := first?_of_comment? rfl (by rw [comment?, block, line]; rfl)
      rw [comment] at found
      cases found

/-- A line goes on in front of a text. -/
theorem endsComment_append_of_all {front : List Char} (inside : front.all (!endsLine ·) = true)
    (cs : List Char) : endsComment (front ++ cs) = endsComment cs := by
  rw [endsComment, List.dropWhile_append_of_pos (List.all_eq_true.mp inside), endsComment]

/-- A carriage return that stands alone does so with a blank behind the text. -/
theorem endsComment_append {cs : List Char} (endless : endsComment cs = false) (tail : List Char) :
    endsComment (cs ++ ' ' :: tail) = false := by
  have nonempty : cs.dropWhile (!endsLine ·) ≠ [] := by
    intro none
    rw [endsComment, none] at endless
    cases endless
  rw [endsComment, List.dropWhile_append, if_neg (by simpa using nonempty),
    atLineEnd_append_blank nonempty]
  exact endless

/-- In one line a comment ends unless there is a carriage return. -/
theorem endsComment_iff {cs : List Char} (oneLine : '\n' ∉ cs) :
    endsComment cs = true ↔ '\r' ∉ cs := by
  induction cs with
  | nil => exact iff_of_true rfl List.not_mem_nil
  | cons c cs ih =>
      obtain ⟨feed, later⟩ := not_or.mp (mt List.mem_cons.mpr oneLine)
      by_cases return_ : c = '\r'
      · subst return_
        have endless : endsComment ('\r' :: cs) = false := by
          have alone : cs.head? ≠ some '\n' := fun feed => later (List.mem_of_head? feed)
          show atLineEnd ('\r' :: cs) = false
          simp [atLineEnd_cons, alone]
        simp [endless]
      · have inside : [c].all (!endsLine ·) = true := by
          simp [endsLine, return_, Ne.symm feed]
        rw [← List.singleton_append, endsComment_append_of_all inside, ih later]
        simp [Ne.symm return_]

/-! ## Tokens in front of a blank -/

namespace Token

/-- Whether a token may go on into blanks and a comment behind the text. -/
def merges : Token → Bool
  | blanks _ | lineComment _ => true
  | _ => false

theorem insignificant_of_merges {token : Token} (merges : token.merges = true) :
    token.isSignificant = false := by
  cases token <;> first | rfl | cases merges

end Token

section
variable {rest : List Char} (tail : List Char)

theorem head?_dropWhile {p : Char → Bool} (cs : List Char) :
    ∀ c ∈ (cs.dropWhile p).head?, p c = false := by
  intro c mem
  have stop := List.head?_dropWhile_not p cs
  rwa [Option.mem_def.mp mem] at stop

/-- What ends in front of a text ends in front of the text with a blank behind it. -/
theorem head?_append_blank {p : Char → Bool} (stop : ∀ c ∈ rest.head?, p c = false)
    (blank : rest ≠ [] ∨ p ' ' = false) : ∀ c ∈ (rest ++ ' ' :: tail).head?, p c = false := by
  cases rest with
  | nil =>
      rintro _ ⟨⟩
      exact blank.resolve_left (absurd rfl)
  | cons d rest => exact stop

theorem first?_operator_append {symbol : Operator}
    (found : first? (symbol.text ++ rest) = some ⟨.operator symbol, symbol.text, rest⟩)
    (apart : symbol = .divide → rest.head? ≠ some '*') :
    first? (symbol.text ++ (rest ++ ' ' :: tail)) =
      some ⟨.operator symbol, symbol.text, rest ++ ' ' :: tail⟩ := by
  cases rest with
  | nil =>
      refine first?_operator symbol ?_
      rintro _ ⟨⟩
      cases symbol <;> rfl
  | cons c rest =>
      cases longer : extends? symbol c with
      | false => exact first?_operator symbol (by rintro _ ⟨⟩; exact longer)
      | true =>
          -- A longer operator would have been cut off, and so would a comment.
          cases symbol with
          | less =>
              obtain rfl : c = '=' := of_decide_eq_true longer
              cases found.symm.trans (@first?_operator .lessEqual rest fun _ _ => rfl)
          | greater =>
              obtain rfl : c = '=' := of_decide_eq_true longer
              cases found.symm.trans (@first?_operator .greaterEqual rest fun _ _ => rfl)
          | not =>
              obtain rfl : c = '=' := of_decide_eq_true longer
              cases found.symm.trans (@first?_operator .notEqual rest fun _ _ => rfl)
          | divide =>
              rcases Bool.or_eq_true_iff.mp longer with slash | star
              · obtain rfl : c = '/' := of_decide_eq_true slash
                exact first?_slashes (endsComment_append (endsComment_of_first? found) tail)
              · obtain rfl : c = '*' := of_decide_eq_true star
                exact absurd rfl (apart rfl)
          | _ => cases longer

/-- A token that stops in front of a text does so with a blank behind the text, unless there is no
text and it goes on into the blank. -/
theorem Token.Stops.append {token : Token} (stops : token.Stops rest)
    (room : token.merges = true → rest ≠ []) : token.Stops (rest ++ ' ' :: tail) := by
  cases token with
  | keyword word | name word => exact head?_append_blank tail stops (.inr rfl)
  | operator symbol => exact head?_append_blank tail stops (.inr (by cases symbol <;> rfl))
  | number value =>
      refine ⟨head?_append_blank tail stops.1 (.inr rfl), ?_⟩
      rw [fraction?_append (by rintro _ ⟨⟩; decide), stops.2]
      rfl
  | blanks run => exact head?_append_blank tail stops (.inl (room rfl))
  | lineComment contents => exact (atLineEnd_append_blank (room rfl) tail).trans stops
  | lineBreak | blockComment contents | string contents | delimiter symbol => trivial

end

section
variable {cs source rest : List Char} {token : Token}

/-- A token stops in front of what is left, but a number may be in front of another point, and an
operator may be one of two that are no longer one. -/
theorem stops_of_first? (found : first? cs = some ⟨token, source, rest⟩) :
    token.Stops rest ∨
      (∃ whole fraction, digits? cs = some (whole, fraction, rest) ∧
        token = .number (Number.ofFixed whole fraction 0) ∧
        source = digitsSource whole fraction) ∨
      ∃ symbol, token = .operator symbol ∧ source = symbol.text := by
  obtain ⟨rule, mem, found⟩ := List.exists_of_findSome?_eq_some found
  simp only [rules, List.mem_cons, List.not_mem_nil, or_false] at mem
  rcases mem with rfl | rfl | rfl | rfl | rfl | rfl | rfl
  · unfold blanks? at found
    split at found
    · cases found
    · cases found
      exact .inl (head?_dropWhile cs)
  · unfold lineBreak? at found
    split at found
    · cases found
      exact .inl trivial
    · cases found
      exact .inl trivial
    · cases found
  · rw [comment?, Option.orElse_eq_orElse, Option.orElse_eq_or, Option.or_eq_some_iff] at found
    rcases found with block | ⟨-, line⟩
    · obtain ⟨inside, -, block⟩ := Option.bind_eq_some_iff.mp block
      obtain ⟨⟨contents, behind⟩, -, same⟩ := Option.bind_eq_some_iff.mp block
      cases same
      exact .inl trivial
    · obtain ⟨inside, -, line⟩ := Option.bind_eq_some_iff.mp line
      obtain ⟨ends, same⟩ := Option.ite_none_right_eq_some.mp line
      cases same
      exact .inl ends
  · rw [literal?, Option.orElse_eq_orElse, Option.orElse_eq_or, Option.or_eq_some_iff] at found
    rcases found with string | ⟨-, number⟩
    · cases cs with
      | nil => cases string
      | cons q cs =>
          obtain ⟨-, string⟩ := Option.ite_none_right_eq_some.mp string
          obtain ⟨_, -, same⟩ := Option.map_eq_some_iff.mp string
          cases same
          exact .inl trivial
    · obtain ⟨⟨whole, fraction, last⟩, digits, same⟩ := Option.map_eq_some_iff.mp number
      cases same
      exact .inr (.inl ⟨whole, fraction, digits, rfl, rfl⟩)
  · obtain ⟨symbol, -, found⟩ := List.exists_of_findSome?_eq_some found
    obtain ⟨last, -, same⟩ := Option.map_eq_some_iff.mp found
    cases same
    exact .inr (.inr ⟨symbol, rfl, rfl⟩)
  · obtain ⟨symbol, -, found⟩ := List.exists_of_findSome?_eq_some found
    obtain ⟨last, -, same⟩ := Option.map_eq_some_iff.mp found
    cases same
    exact .inl trivial
  · cases cs with
    | nil => cases found
    | cons c cs =>
        obtain ⟨-, same⟩ := Option.ite_none_right_eq_some.mp found
        cases same
        left
        unfold ofWord
        split <;> exact head?_dropWhile cs

/-- A token is cut off as before if there is a blank behind the text, unless it goes on into this
blank.  Only a division in front of a star may be the start of a comment then. -/
theorem first?_append (found : first? cs = some ⟨token, source, rest⟩)
    (room : token.merges = true → rest ≠ [])
    (apart : token = .operator .divide → rest.head? ≠ some '*') (tail : List Char) :
    first? (cs ++ ' ' :: tail) = some ⟨token, source, rest ++ ' ' :: tail⟩ := by
  obtain ⟨spelled, eq⟩ := spelled_of_first? found
  rcases stops_of_first? found with stops | ⟨whole, fraction, digits, rfl, rfl⟩ | ⟨symbol, rfl, rfl⟩
  · rw [eq, List.append_assoc]
    exact spelled.first? (stops.append tail room)
  · exact first?_number (digits?_append (' ' :: tail) digits (by rintro _ ⟨⟩; decide))
  · rw [eq] at found
    rw [eq, List.append_assoc]
    exact first?_operator_append tail found fun divide => apart (congrArg _ divide)

end

/-! ## Texts in front of a comment -/

namespace Scans

variable {cs source rest : List Char} {token : Token} {ts : List Token}

theorem iff_of_seen (found : first? cs = some ⟨token, source, rest⟩)
    (significant : token.isSignificant = true) :
    Scans cs ts ↔ ∃ more, ts = token :: more ∧ Scans rest more := by
  constructor
  · exact fun scans => scans.seen_inv found significant
  · rintro ⟨more, rfl, scans⟩
    exact .seen found significant scans

theorem iff_of_skipped (found : first? cs = some ⟨token, source, rest⟩)
    (insignificant : token.isSignificant = false) : Scans cs ts ↔ Scans rest ts :=
  ⟨fun scans => scans.skipped_inv found insignificant, .skipped found insignificant⟩

/-- Blanks in front of a text are skipped. -/
theorem gaps_iff {run : List Char} (gaps : run.all isGap = true)
    (stop : ∀ c ∈ rest.head?, isGap c = false) : Scans (run ++ rest) ts ↔ Scans rest ts := by
  by_cases nonempty : run = []
  · rw [nonempty, List.nil_append]
  · exact iff_of_skipped (first?_blanks nonempty gaps stop) rfl

end Scans

/-- The text scans into the given tokens, and then into those of a comment that is opened in one
line with `c`. -/
def ScansUpTo (cs : List Char) (ts : List Token) (c : List Char) : Prop :=
  ∃ front, front.all (!endsLine ·) = true ∧
    ∀ ts', Scans cs ts' ↔ ∃ more, ts' = ts ++ more ∧ Scans ('/' :: '/' :: (front ++ c)) more

namespace ScansUpTo

variable {cs source rest c : List Char} {token : Token} {ts : List Token}

theorem here {front : List Char} (inside : front.all (!endsLine ·) = true)
    (same : ∀ ts', Scans cs ts' ↔ Scans ('/' :: '/' :: (front ++ c)) ts') : ScansUpTo cs [] c :=
  ⟨front, inside, fun ts' => by simp [same]⟩

theorem seen (found : first? cs = some ⟨token, source, rest⟩)
    (significant : token.isSignificant = true) (behind : ScansUpTo rest ts c) :
    ScansUpTo cs (token :: ts) c := by
  obtain ⟨front, inside, behind⟩ := behind
  refine ⟨front, inside, fun ts' => (Scans.iff_of_seen found significant).trans ?_⟩
  constructor
  · rintro ⟨later, rfl, scans⟩
    obtain ⟨more, rfl, comment⟩ := (behind later).mp scans
    exact ⟨more, rfl, comment⟩
  · rintro ⟨more, rfl, comment⟩
    exact ⟨ts ++ more, rfl, (behind _).mpr ⟨more, rfl, comment⟩⟩

theorem skipped (found : first? cs = some ⟨token, source, rest⟩)
    (insignificant : token.isSignificant = false) (behind : ScansUpTo rest ts c) :
    ScansUpTo cs ts c := by
  obtain ⟨front, inside, behind⟩ := behind
  exact ⟨front, inside, fun ts' => (Scans.iff_of_skipped found insignificant).trans (behind ts')⟩

/-- A comment that is opened behind blanks. -/
theorem gaps {run : List Char} (gaps : run.all isGap = true) (c : List Char) :
    ScansUpTo (run ++ ' ' :: '/' :: '/' :: c) [] c := by
  have all : (run ++ [' ']).all isGap = true := by rw [List.all_append, gaps]; rfl
  have same (ts' : List Token) := @Scans.gaps_iff ('/' :: '/' :: c) ts' _ all (by rintro _ ⟨⟩; rfl)
  exact @here _ c [] rfl (by simpa using same)

/-- A comment that is opened behind a token which goes on into it. -/
theorem of_merges (merges : token.merges = true) (spelled : token.Spelled source) (c : List Char) :
    ScansUpTo (source ++ ' ' :: '/' :: '/' :: c) [] c := by
  cases spelled with
  | blanks _ all => exact gaps all c
  | @lineComment contents inside =>
      have front : (contents ++ [' ', '/', '/']).all (!endsLine ·) = true := by
        rw [List.all_append, inside]
        rfl
      exact here front (by simp)
  | @word c cs _ _ =>
      unfold ofWord at merges
      split at merges <;> cases merges
  | _ => cases merges

end ScansUpTo

/-- The tokens of a text are those of the text with an opened comment behind it, up to the comment.
It may have been opened in the text. -/
theorem scans_comment {cs : List Char} {ts : List Token} (scans : Scans cs ts)
    (chain : ts.IsChain Token.Precedes) (c : List Char) :
    ScansUpTo (cs ++ ' ' :: '/' :: '/' :: c) ts c := by
  induction scans with
  | nil => exact @ScansUpTo.gaps [] rfl c
  | @seen cs source rest token ts found significant behind ih =>
      have apart : token = .operator .divide → rest.head? ≠ some '*' := by
        rintro rfl star
        obtain ⟨rest, rfl⟩ := List.head?_eq_some_iff.mp star
        obtain ⟨more, rfl, -⟩ :=
          (Scans.iff_of_seen (@first?_operator .times rest fun _ _ => rfl) rfl).mp behind
        have starts := (List.isChain_cons_cons.mp chain).1 .divide rfl rfl
        cases starts
      have alone : token.merges = true → rest ≠ [] := by
        intro merges
        rw [Token.insignificant_of_merges merges] at significant
        cases significant
      exact .seen (first?_append found alone apart _) significant (ih chain.tail)
  | @skipped cs source rest token ts found insignificant behind ih =>
      by_cases room : token.merges = true → rest ≠ []
      · refine .skipped (first?_append found room ?_ _) insignificant (ih chain)
        rintro rfl
        cases insignificant
      · obtain ⟨merges, rfl⟩ : token.merges = true ∧ rest = [] := by
          simpa using room
        obtain ⟨spelled, rfl⟩ := spelled_of_first? found
        obtain rfl := behind.nil_inv
        rw [List.append_nil]
        exact .of_merges merges spelled c

/-! ## Operators behind an expression -/

open Limits (State)
open Limits.State

namespace Limits.State.Passes

/-- The pass goes over the tokens behind others from where it has come to. -/
theorem behind {base base' : Nat} {s s' s'' : State} {u w : List Token} {ds fs : List Nat}
    (first : Passes base s u ds s') (whole : Passes base' s (u ++ w) fs s'') :
    ∃ gs, Passes base' s' w gs s'' := by
  induction first generalizing fs with
  | nil => exact ⟨fs, whole⟩
  | cons _ _ ih =>
      cases whole with
      | cons _ rest => exact ih rest

end Limits.State.Passes

/-- Tokens that form an expression do not form the same one with an operator and more tokens behind
them: it would have an operator more. -/
theorem Derives.not_append_binary {u w : List Token} {e : Expr} (word : Derives .expression u e)
    (op : BinaryOp) : ¬ Derives .expression (u ++ .operator op.symbol :: w) e := by
  intro longer
  obtain ⟨_, depths⟩ := word.depths
  obtain ⟨_, depths'⟩ := longer.depths
  obtain ⟨_, operator⟩ := depths.passes.behind depths'.passes
  cases operator with
  | cons _ rest =>
      rw [next_binary] at rest
      have more : e.operators + 1 ≤ e.operators := Limits.binary_le_of_passes rest
      omega

/-! ## The comment behind an expression -/

/-- A comment that is opened in a line without a carriage return has no tokens. -/
theorem scans_slashes {cs : List Char} (inside : cs.all (!endsLine ·) = true) :
    Scans ('/' :: '/' :: cs) [] := by
  have comment : first? ('/' :: '/' :: cs ++ []) = some _ :=
    (Token.Spelled.lineComment inside).first? rfl
  rw [List.append_nil] at comment
  exact .skipped comment rfl .nil

namespace Expr

/-- A line comment at the end of the text, and so without a line feed, changes nothing behind an
expression exactly if there is no carriage return in it. -/
theorem ofText_comment_iff {cs c : List Char} {e : Expr} (parsed : ofText cs = .ok e)
    (oneLine : '\n' ∉ c) : ofText (cs ++ [' ', '/', '/'] ++ c) = .ok e ↔ '\r' ∉ c := by
  obtain ⟨ts, scans, few, word⟩ := ofText_iff_scans.mp parsed
  obtain ⟨front, inside, upTo⟩ := scans_comment scans word.complete.chain c
  have ends : endsComment (front ++ c) = true ↔ '\r' ∉ c := by
    rw [endsComment_append_of_all inside, endsComment_iff oneLine]
  have text : cs ++ [' ', '/', '/'] ++ c = cs ++ ' ' :: '/' :: '/' :: c := by simp
  rw [text, ofText_iff_scans]
  constructor
  · rintro ⟨ts', scans', -, word'⟩
    rw [← ends]
    by_contra endless
    -- The marks are operators, and the expression has one operator more.
    obtain ⟨more, rfl, opened⟩ := (upTo ts').mp scans'
    obtain ⟨more, rfl, -⟩ :=
      (Scans.iff_of_seen (first?_slashes (Bool.eq_false_iff.mpr endless)) rfl).mp opened
    exact word.not_append_binary .divide word'
  · intro none
    have line : (front ++ c).all (!endsLine ·) = true := by
      rw [List.all_append, inside, Bool.true_and, List.all_eq_true]
      intro d mem
      have feed : d ≠ '\n' := fun eq => oneLine (eq ▸ mem)
      have return_ : d ≠ '\r' := fun eq => none (eq ▸ mem)
      simp [endsLine, feed, return_]
    exact ⟨ts, (upTo ts).mpr ⟨[], (List.append_nil ts).symm, scans_slashes line⟩, few, word⟩

/-- A comment goes on into the one that is put behind it. -/
theorem ofText_comment_iff_low :
    ofText "hp // low".toList = .ok (name "hp") ∧ '\n' ∉ "'health /*".toList ∧
      '\r' ∉ "'health /*".toList ∧
      ofText ("hp // low".toList ++ [' ', '/', '/'] ++ "'health /*".toList) = .ok (name "hp") := by
  have word : Derives .unary [.name "hp"] (name "hp") := .bare (.postfixed .name .noLinks)
  have parsed : ofText "hp // low".toList = .ok (name "hp") :=
    ofText_iff_scans.mpr ⟨_, by decide +kernel, by decide +kernel, word.expression_of_unary⟩
  have one : '\n' ∉ "'health /*".toList := by decide
  have none : '\r' ∉ "'health /*".toList := by decide
  exact ⟨parsed, one, none, (ofText_comment_iff parsed one).mpr none⟩

/-- A carriage return at the end of the comment. -/
theorem ofText_comment_return :
    ofText "hp".toList = .ok (name "hp") ∧ '\n' ∉ " low health\r".toList ∧
      ofText ("hp".toList ++ [' ', '/', '/'] ++ " low health\r".toList) ≠ .ok (name "hp") := by
  have word : Derives .unary [.name "hp"] (name "hp") := .bare (.postfixed .name .noLinks)
  have parsed : ofText "hp".toList = .ok (name "hp") :=
    ofText_iff_scans.mpr ⟨_, by decide +kernel, by decide +kernel, word.expression_of_unary⟩
  have fails : (ofText ("hp".toList ++ [' ', '/', '/'] ++ " low health\r".toList)).toOption.isNone =
      true := by
    decide +kernel
  refine ⟨parsed, by decide, fun same => ?_⟩
  rw [same] at fails
  cases fails

end Expr

end Trigger
