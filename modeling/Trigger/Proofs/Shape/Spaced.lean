import Trigger.Proofs.Shape.TopLevel

/-!
# Tokens with blanks between them

`Spaced ts cs` says that the text `cs` is the spellings of the tokens `ts` in a row, with any blanks
around them.  A text that is scanned without a comment is such a text (`spaced_of_scanWithin`).

Unlike a scan this does not look at what stands behind a token, so a text is taken apart where its
tokens are.  And it says enough for a pattern: a text is matched if the pattern reads its tokens
(`captures?_of_reads`), since a pattern knows by itself where its pieces end.
-/

namespace Trigger

open Lexeme

/-! ## Spellings of words and symbols -/

namespace Token

/-- Whether the token is a word or a symbol. -/
def isWritten : Token → Bool
  | .keyword _ | .name _ | .operator _ | .delimiter _ => true
  | _ => false

/-- A word or a symbol has one spelling. -/
theorem Spelled.eq_text {token : Token} {source : List Char} (spelled : token.Spelled source)
    (written : token.isWritten = true) : source = token.text := by
  cases spelled with
  | operator symbol => rfl
  | delimiter symbol => rfl
  | word _ _ => exact (text_ofWord _).symm
  | _ => cases written

theorem text_of_written? {cs : List Char} {token : Token} (written : written? cs = some token) :
    token.isWritten = true ∧ token.text = cs := by
  rw [written?, Option.or_eq_some_iff, Option.or_eq_some_iff] at written
  rcases written with operator | ⟨-, delimiter | ⟨-, word⟩⟩
  · obtain ⟨symbol, found, rfl⟩ := Option.map_eq_some_iff.mp operator
    exact ⟨rfl, by simpa [Token.text] using List.find?_some found⟩
  · obtain ⟨symbol, found, rfl⟩ := Option.map_eq_some_iff.mp delimiter
    exact ⟨rfl, by simpa [Token.text] using List.find?_some found⟩
  · obtain ⟨-, same⟩ := Option.ite_none_right_eq_some.mp word
    cases same
    refine ⟨?_, text_ofWord cs⟩
    unfold ofWord
    cases Keyword.ofText? cs <;> rfl

theorem significant_of_written? {cs : List Char} {token : Token}
    (written : written? cs = some token) : token.isSignificant = true := by
  have isWritten := (text_of_written? written).1
  cases token <;> first | rfl | cases isWritten

theorem Spelled.eq_of_written? {cs source : List Char} {token : Token}
    (spelled : token.Spelled source) (written : written? cs = some token) : source = cs := by
  obtain ⟨isWritten, text⟩ := text_of_written? written
  exact (spelled.eq_text isWritten).trans text

theorem Spelled.number_inv {n : Float} {source : List Char}
    (spelled : (Token.number n).Spelled source) :
    ∃ whole fraction, n = Number.ofFixed whole fraction 0 ∧ source = digitsSource whole fraction ∧
      whole ≠ [] ∧ whole.all Char.isDigit = true ∧ fraction.all Char.isDigit = true := by
  generalize same : Token.number n = token at spelled
  cases spelled with
  | number nonempty digits digits' =>
      cases same
      exact ⟨_, _, rfl, rfl, nonempty, digits, digits'⟩
  | word _ _ =>
      unfold ofWord at same
      split at same <;> cases same
  | _ => cases same

/-- A token that the parser sees does not start with a blank. -/
theorem Spelled.head_not_blank {token : Token} {source : List Char} (spelled : token.Spelled source)
    (significant : token.isSignificant = true) : ∀ c ∈ source.head?, Text.isBlank c = false := by
  intro c mem
  cases blank : Text.isBlank c with
  | false => rfl
  | true =>
      obtain ⟨unmarked, continues, digit, -, -⟩ := of_isBlank blank
      exfalso
      cases spelled with
      | operator symbol | delimiter symbol =>
          refine unmarked ?_
          cases symbol <;> cases mem <;> decide
      | string quoted _ =>
          cases mem
          rcases quoted with rfl | rfl <;> exact unmarked (by decide)
      | @number whole fraction nonempty digits _ =>
          cases whole with
          | nil => contradiction
          | cons d whole =>
              obtain rfl : d = c := by cases fraction <;> simpa [digitsSource] using mem
              rw [(Bool.and_eq_true_iff.mp digits).1] at digit
              cases digit
      | word starts _ =>
          cases mem
          rw [continuesWord, starts] at continues
          cases continues
      | _ => cases significant

/-- A token that is neither seen by the parser nor a comment is blank. -/
theorem Spelled.all_isBlank {token : Token} {source : List Char} (spelled : token.Spelled source)
    (insignificant : token.isSignificant = false) (clean : token.isComment = false) :
    source.all Text.isBlank = true := by
  cases spelled with
  | blanks _ gaps =>
      exact List.all_eq_true.mpr fun c mem => isBlank_of_isGap (List.all_eq_true.mp gaps c mem)
  | lineFeed | carriageReturn => decide
  | blockComment _ | lineComment _ => cases clean
  | word _ _ =>
      rw [(isSignificant_ofWord _).1] at insignificant
      cases insignificant
  | _ => cases insignificant

end Token

/-! ## Spaced tokens -/

/-- The spellings of the tokens in a row, with any blanks around them. -/
inductive Spaced : List Token → List Char → Prop
  | nil {blanks : List Char} : blanks.all Text.isBlank = true → Spaced [] blanks
  | cons {blanks source rest : List Char} {token : Token} {ts : List Token} :
      blanks.all Text.isBlank = true → token.Spelled source → Spaced ts rest →
      Spaced (token :: ts) (blanks ++ (source ++ rest))

namespace Spaced

variable {cs blanks : List Char} {u w : List Token}

theorem blanks_append (blank : blanks.all Text.isBlank = true) (spaced : Spaced u cs) :
    Spaced u (blanks ++ cs) := by
  cases spaced with
  | nil more => exact .nil (by simp [blank, more])
  | cons more spelled behind =>
      rw [← List.append_assoc]
      exact .cons (by simp [blank, more]) spelled behind

theorem append_blanks (spaced : Spaced u cs) (blank : blanks.all Text.isBlank = true) :
    Spaced u (cs ++ blanks) := by
  induction spaced with
  | nil more => exact .nil (by simp [blank, more])
  | cons more spelled _ ih =>
      rw [List.append_assoc, List.append_assoc]
      exact .cons more spelled ih

/-- Behind its blanks a text starts with its first token. -/
theorem cons_inv {token : Token} (significant : token.isSignificant = true)
    (spaced : Spaced (token :: u) cs) :
    ∃ source rest, Text.trimStart cs = source ++ rest ∧ token.Spelled source ∧ Spaced u rest := by
  cases spaced with
  | @cons _ source rest _ _ blank spelled behind =>
      refine ⟨source, rest, ?_, spelled, behind⟩
      have solid := spelled.head_not_blank significant
      cases source with
      | nil => exact absurd rfl spelled.ne_nil
      | cons c source =>
          rw [Text.trimStart, List.dropWhile_append_of_pos (List.all_eq_true.mp blank)]
          exact List.dropWhile_cons_of_neg (by simp [solid c rfl])

/-- A text of tokens is cut where the tokens are. -/
theorem append_inv (spaced : Spaced (u ++ w) cs) :
    ∃ left right, cs = left ++ right ∧ Spaced u left ∧ Spaced w right := by
  induction u generalizing cs with
  | nil => exact ⟨[], cs, rfl, .nil rfl, spaced⟩
  | cons token u ih =>
      cases spaced with
      | cons blank spelled behind =>
          obtain ⟨left, right, rfl, front, back⟩ := ih behind
          exact ⟨_, right, by simp, .cons blank spelled front, back⟩

/-- The blanks in front of a symbol go to the text before it. -/
theorem symbol_inv {token : Token} (written : token.isWritten = true)
    (spaced : Spaced (u ++ token :: w) cs) :
    ∃ left right, cs = left ++ (token.text ++ right) ∧ Spaced u left ∧ Spaced w right := by
  obtain ⟨left, behind, rfl, front, back⟩ := spaced.append_inv
  cases back with
  | cons blank spelled back =>
      obtain rfl := spelled.eq_text written
      exact ⟨_, _, by simp, front.append_blanks blank, back⟩

theorem between_inv (spaced : Spaced (Token.between .openParen u .closeParen) cs) :
    ∃ before inner behind, cs = before ++ '(' :: (inner ++ ')' :: behind) ∧
      before.all Text.isBlank = true ∧ behind.all Text.isBlank = true ∧ Spaced u inner := by
  have opened : Spaced ([] ++ .delimiter .openParen :: (u ++ [.delimiter .closeParen])) cs := spaced
  obtain ⟨before, inside, rfl, front, closed⟩ := opened.symbol_inv rfl
  obtain ⟨inner, behind, rfl, spaced, back⟩ := closed.symbol_inv rfl
  cases front with
  | nil blank =>
      cases back with
      | nil blank' => exact ⟨before, inner, behind, rfl, blank, blank', spaced⟩

end Spaced

/-- A text that is scanned without a comment consists of tokens and blanks. -/
theorem spaced_of_scanWithin {fuel : Nat} {p : Position} {cs : List Char} {spans : List Span}
    (scanned : (Token.scanWithin fuel p cs).1 = .ok spans)
    (clean : ∀ span ∈ spans, span.token.isComment = false) :
    Spaced (Expr.significantTokens spans) cs := by
  induction spans generalizing fuel p cs with
  | nil =>
      obtain ⟨rfl, -⟩ | ⟨_, _, _, _, _, -, eq, -⟩ := scanWithin_ok_inv scanned
      · exact .nil rfl
      · cases eq
  | cons span spans ih =>
      obtain ⟨-, eq⟩ | ⟨more, token, source, rest, later, found, eq, behind⟩ :=
        scanWithin_ok_inv scanned
      · cases eq
      · cases eq
        obtain ⟨first, others⟩ := List.forall_mem_cons.mp clean
        obtain ⟨spelled, rfl⟩ := spelled_of_first? found
        have rest := ih behind others
        cases significant : token.isSignificant with
        | true =>
            simp only [Expr.significantTokens, Span.significant, significant,
              List.filter_cons_of_pos, List.map_cons]
            have spaced : Spaced _ ([] ++ (source ++ _)) := .cons rfl spelled rest
            exact spaced
        | false =>
            simp only [Expr.significantTokens, Span.significant, significant, List.filter_cons,
              Bool.false_eq_true, if_false]
            exact rest.blanks_append (spelled.all_isBlank significant first)

/-! ## Patterns -/

namespace Pattern

/-- The longer orderings are looked for first. -/
theorem opInFront?_orderings {op : BinaryOp} {rest : List Char} (mem : op ∈ orderings)
    (stop : ∀ c ∈ rest.head?, extends? op.symbol c = false) :
    opInFront? orderings (op.symbol.text ++ rest) = some (op, rest) := by
  simp only [orderings, List.mem_cons, List.not_mem_nil, or_false] at mem
  cases rest with
  | nil => rcases mem with rfl | rfl | rfl | rfl <;> rfl
  | cons c rest =>
      have apart := stop c rfl
      rcases mem with rfl | rfl | rfl | rfl
      · rfl
      · rfl
      · have differs : ('=' == c) = false := beq_false_of_ne (Ne.symm (of_decide_eq_false apart))
        simp [opInFront?, orderings, BinaryOp.symbol, Operator.text, isPrefixOf?_cons,
          isPrefixOf?_nil, differs]
      · have differs : ('=' == c) = false := beq_false_of_ne (Ne.symm (of_decide_eq_false apart))
        simp [opInFront?, orderings, BinaryOp.symbol, Operator.text, isPrefixOf?_cons,
          isPrefixOf?_nil, differs]

/-- The orderings of the pattern are all orderings. -/
def isOrdered (ps : Pattern) : Bool :=
  ps.all fun
    | .ordering ops => ops = orderings
    | _ => true

theorem endsAt_number {c : Char} (ends : Piece.number.endsAt c = true) :
    c.isDigit = false ∧ c ≠ '.' := by
  simpa [Piece.endsAt] using ends

theorem fraction?_of_stop {rest : List Char} (stop : ∀ c ∈ rest.head?, c ≠ '.') :
    fraction? rest = none := by
  cases rest with
  | nil => rfl
  | cons c rest => exact fraction?_of_ne rest (stop c rfl)

/-- A pattern of orderings matches the tokens that it reads, with any blanks around them. -/
theorem captures?_of_reads {ps : Pattern} {u : List Token} {c : Captures} {cs : List Char}
    (separate : ps.separate = true) (ordered : ps.isOrdered = true)
    (reads : ps.Reads u c) (spaced : Spaced u cs) : ps.captures? cs = some c := by
  induction ps generalizing u c cs with
  | nil =>
      obtain ⟨rfl, rfl⟩ := reads
      cases spaced with
      | nil blank => simp [captures?, Text.trimStart_eq_nil blank]
  | cons p ps ih =>
      have later := (Bool.and_eq_true_iff.mp separate).2
      obtain ⟨ordered, ordered'⟩ := Bool.and_eq_true_iff.mp ordered
      have behind {rest : List Char} {w : List Token} {c : Captures} (reads : Pattern.Reads ps w c)
          (spaced : Spaced w rest) :
          captures? ps rest = some c ∧ ∀ d ∈ rest.head?, p.endsAt d = true := by
        have matched := ih later ordered' reads spaced
        have stop := endsAt_behind separate matched closes_nil
        rw [List.append_nil] at stop
        exact ⟨matched, stop⟩
      cases p with
      | text expected =>
          obtain ⟨token, w, written, rfl, reads⟩ := reads
          have significant := Token.significant_of_written? written
          obtain ⟨source, rest, front, spelled, others⟩ := spaced.cons_inv significant
          obtain rfl := spelled.eq_of_written? written
          have here := isPrefixOf?_eq_some_iff.mpr front
          simp only [captures?, here, Option.bind_some]
          exact (behind reads others).1
      | access =>
          obtain ⟨symbol, optional, w, access, rfl, reads⟩ := reads
          obtain ⟨source, rest, front, spelled, others⟩ := spaced.cons_inv rfl
          obtain rfl := spelled.eq_text rfl
          have matched := (behind reads others).1
          cases symbol with
          | optionalDot | dot =>
              simp only [captures?, front]
              exact matched
          | _ => cases access
      | ordering ops =>
          obtain ⟨op, w, c, mem, rfl, rfl, reads⟩ := reads
          obtain ⟨source, rest, front, spelled, others⟩ := spaced.cons_inv rfl
          obtain rfl := spelled.eq_text rfl
          obtain ⟨matched, stop⟩ := behind reads others
          obtain rfl : ops = orderings := of_decide_eq_true ordered
          have here : opInFront? orderings ((Token.operator op.symbol).text ++ rest) =
              some (op, rest) := opInFront?_orderings mem fun d first => by
            simpa [Token.endsAt] using List.all_eq_true.mp (stop d first) op mem
          simp only [captures?, front, here, Option.bind_some, matched, Option.map_some]
      | number =>
          obtain ⟨n, w, c, rfl, rfl, reads⟩ := reads
          obtain ⟨source, rest, front, spelled, others⟩ := spaced.cons_inv rfl
          obtain ⟨whole, fraction, rfl, rfl, nonempty, digits, digits'⟩ := spelled.number_inv
          obtain ⟨matched, stop⟩ := behind reads others
          have here := digits?_digitsSource nonempty digits digits'
            (fun d first => (endsAt_number (stop d first)).1)
            (fraction?_of_stop fun d first => (endsAt_number (stop d first)).2)
          simp only [captures?, front, numberInFront?, here, Option.map_some, Option.bind_some,
            matched]

end Pattern

end Trigger
