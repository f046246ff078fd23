import Trigger.Proofs.Token.Scans
import Trigger.Shape.OfText

/-!
# What a pattern matches scans into its pieces

Patterns look at characters, and the scanner cuts a text by rules of its own.  Both agree on a text
that matches a pattern of the catalog, since each piece is one token and ends in front of whatever
can follow it: a blank, the next piece, or what stands behind a recognized text.
`Pattern.separate` checks this for a pattern.

`Pattern.Reads` says which tokens a pattern reads, and `reads_of_captures?` that a text which
matches is scanned into such tokens.
-/

namespace Trigger

open Lexeme

/-! ## Behind a recognized text -/

/-- What a text may start with that stands behind a recognized one. -/
def closers : List Char := ['&', '|', ')']

/-- A text that stands behind a recognized one. -/
def Closes (tail : List Char) : Prop := ∀ c ∈ tail.head?, c ∈ closers

theorem closes_nil : Closes [] := nofun

theorem closes_cons {c : Char} (mem : c ∈ closers) (tail : List Char) : Closes (c :: tail) := by
  rintro _ ⟨⟩
  exact mem

theorem Closes.trimStart {tail : List Char} (closes : Closes tail) :
    Text.trimStart tail = tail := by
  cases tail with
  | nil => rfl
  | cons c tail =>
      have solid : closers.all (!Text.isBlank ·) = true := by decide
      exact List.dropWhile_cons_of_neg (by simpa using List.all_eq_true.mp solid c (closes c rfl))

theorem Closes.trimStart_append {tail : List Char} (closes : Closes tail) (cs : List Char) :
    Text.trimStart (cs ++ tail) = Text.trimStart cs ++ tail := by
  have same : tail.dropWhile Text.isBlank = tail := closes.trimStart
  rw [Text.trimStart, List.dropWhile_append, same]
  split
  · rename_i blank
    rw [Text.trimStart, List.isEmpty_iff.mp blank, List.nil_append]
  · rfl

/-! ## Pieces and what may follow them -/

namespace Piece

/-- Whether a piece ends in front of a character. -/
def endsAt : Piece → Char → Bool
  | .text cs, c => (Token.written? cs).any (·.endsAt c)
  | .access, _ => true
  | .ordering ops, c => ops.all fun op => (Token.operator op.symbol).endsAt c
  | .number, c => !c.isDigit && c != '.'

/-- What a text starts with that a piece matches. -/
def heads : Piece → List Char
  | .text cs => cs.take 1
  | .access => ['?', '.']
  | .ordering ops => ops.flatMap fun op => op.symbol.text.take 1
  | .number => (List.range' 48 10).map Char.ofNat

theorem endsAt_of_isBlank {p : Piece} {c d : Char} (ends : p.endsAt d = true)
    (blank : Text.isBlank c = true) : p.endsAt c = true := by
  cases p with
  | text cs =>
      obtain ⟨token, written, -⟩ := (Option.any_eq_true _ _).mp ends
      exact (Option.any_eq_true _ _).mpr ⟨token, written, token.endsAt_of_isBlank blank⟩
  | access => rfl
  | ordering ops => exact List.all_eq_true.mpr fun op _ => Token.endsAt_of_isBlank _ blank
  | number =>
      obtain ⟨-, -, digit, point, -⟩ := of_isBlank blank
      simp [endsAt, digit, point]

end Piece

namespace Pattern

/-- What a text starts with that a pattern matches. -/
def heads : Pattern → List Char
  | [] => []
  | p :: _ => p.heads

/-- Whether each piece ends in front of the next one, and in front of what closes a text. -/
def separate : Pattern → Bool
  | [] => true
  | p :: ps => (closers ++ heads ps).all p.endsAt && separate ps

theorem opInFront?_eq_some {ops : List BinaryOp} {cs rest : List Char} {op : BinaryOp}
    (found : opInFront? ops cs = some (op, rest)) : op ∈ ops ∧ cs = op.symbol.text ++ rest := by
  obtain ⟨op', mem, found⟩ := List.exists_of_findSome?_eq_some found
  obtain ⟨rest', isFirst, same⟩ := Option.map_eq_some_iff.mp found
  cases same
  exact ⟨mem, isPrefixOf?_eq_some_iff.mp isFirst⟩

theorem mem_heads_of_digits? {cs whole fraction rest : List Char}
    (found : digits? cs = some (whole, fraction, rest)) :
    ∀ c ∈ cs.head?, c ∈ Piece.heads .number := by
  intro c mem
  cases cs with
  | nil => cases mem
  | cons c cs =>
      cases mem
      have digit : c.isDigit = true := by
        cases digit : c.isDigit with
        | true => rfl
        | false => simp [digits?, Number.spanDigits, digit] at found
      exact List.mem_map.mpr ⟨c.toNat, mem_range_of_isDigit digit, Char.ofNat_toNat c⟩

theorem access_of_captures? {ps : Pattern} {cs : List Char} {c : Captures}
    (found : captures? (.access :: ps) cs = some c) :
    ∃ (symbol : Operator) (optional : Bool) (rest : List Char),
      symbol.access? = some optional ∧ Text.trimStart cs = symbol.text ++ rest ∧
        captures? ps rest = some c := by
  simp only [captures?] at found
  split at found
  · rename_i rest isFirst
    exact ⟨.optionalDot, true, rest, rfl, isPrefixOf?_eq_some_iff.mp isFirst, found⟩
  · obtain ⟨rest, isFirst, found⟩ := Option.bind_eq_some_iff.mp found
    exact ⟨.dot, false, rest, rfl, isPrefixOf?_eq_some_iff.mp isFirst, found⟩

/-- A text that a pattern matches starts with what the first piece starts with. -/
theorem mem_heads_of_captures? {ps : Pattern} {cs : List Char} {c : Captures}
    (separate : separate ps = true) (found : captures? ps cs = some c) :
    ∀ d ∈ (Text.trimStart cs).head?, d ∈ heads ps := by
  cases ps with
  | nil =>
      simp only [captures?, Option.ite_none_right_eq_some] at found
      rw [List.isEmpty_iff.mp found.1]
      nofun
  | cons p ps =>
      cases p with
      | text expected =>
          obtain ⟨rest, isFirst, -⟩ := Option.bind_eq_some_iff.mp found
          rw [isPrefixOf?_eq_some_iff.mp isFirst]
          cases expected with
          | nil => cases separate
          | cons e expected => simp [heads, Piece.heads]
      | access =>
          obtain ⟨symbol, optional, rest, access, eq, -⟩ := access_of_captures? found
          rw [eq]
          cases symbol with
          | optionalDot | dot => simp [heads, Piece.heads, Operator.text]
          | _ => cases access
      | ordering ops =>
          obtain ⟨⟨op, rest⟩, isFirst, -⟩ := Option.bind_eq_some_iff.mp found
          obtain ⟨mem, eq⟩ := opInFront?_eq_some isFirst
          rw [eq]
          intro d first
          refine List.mem_flatMap.mpr ⟨op, mem, ?_⟩
          cases op <;> simpa [BinaryOp.symbol, Operator.text] using first.symm
      | number =>
          obtain ⟨_, isFirst, -⟩ := Option.bind_eq_some_iff.mp found
          obtain ⟨_, digits, -⟩ := Option.map_eq_some_iff.mp isFirst
          exact mem_heads_of_digits? digits

/-- Behind a piece stands something in front of which it ends. -/
theorem endsAt_behind {p : Piece} {ps : Pattern} {cs tail : List Char} {c : Captures}
    (separate : separate (p :: ps) = true) (found : captures? ps cs = some c)
    (closes : Closes tail) : ∀ d ∈ (cs ++ tail).head?, p.endsAt d = true := by
  intro d mem
  obtain ⟨ends, later⟩ := Bool.and_eq_true_iff.mp separate
  have ends := List.all_eq_true.mp ends
  cases cs with
  | nil => exact ends d (List.mem_append_left _ (closes d mem))
  | cons e cs =>
      obtain rfl : e = d := by simpa using mem
      cases blank : Text.isBlank e with
      | true => exact Piece.endsAt_of_isBlank (ends '&' (by simp [closers])) blank
      | false =>
          have heads := mem_heads_of_captures? later found
          rw [Text.trimStart, List.dropWhile_cons_of_neg (by simp [blank])] at heads
          exact ends e (List.mem_append_right _ (heads e rfl))

/-! ## The tokens of a pattern -/

/-- The tokens that a pattern reads, and what it captures of them. -/
def Reads : Pattern → List Token → Captures → Prop
  | [], u, c => u = [] ∧ c = .empty
  | .text cs :: ps, u, c =>
    ∃ token w, Token.written? cs = some token ∧ u = token :: w ∧ Reads ps w c
  | .access :: ps, u, c =>
    ∃ symbol optional w, symbol.access? = some optional ∧ u = .operator symbol :: w ∧ Reads ps w c
  | .ordering ops :: ps, u, c =>
    ∃ op w c', op ∈ ops ∧ u = .operator op.symbol :: w ∧ c = c'.withOp op ∧ Reads ps w c'
  | .number :: ps, u, c =>
    ∃ n w c', u = .number n :: w ∧ c = c'.withNumber n ∧ Reads ps w c'

/-- A text that a pattern matches scans into tokens that the pattern reads. -/
theorem reads_of_captures? {ps : Pattern} {cs tail : List Char} {ts : List Token} {c : Captures}
    (separate : ps.separate = true) (found : ps.captures? cs = some c) (closes : Closes tail)
    (scans : Scans (cs ++ tail) ts) : ∃ u w, ts = u ++ w ∧ Scans tail w ∧ ps.Reads u c := by
  induction ps generalizing cs ts c with
  | nil =>
      simp only [captures?, Option.ite_none_right_eq_some, Option.some.injEq] at found
      have scans := scans.trimStart
      rw [closes.trimStart_append, List.isEmpty_iff.mp found.1] at scans
      exact ⟨[], ts, rfl, scans, rfl, found.2.symm⟩
  | cons p ps ih =>
      obtain ⟨ends, later⟩ := Bool.and_eq_true_iff.mp separate
      have scans := scans.trimStart
      rw [closes.trimStart_append] at scans
      cases p with
      | text expected =>
          obtain ⟨rest, isFirst, found⟩ := Option.bind_eq_some_iff.mp found
          obtain ⟨token, written, -⟩ :=
            (Option.any_eq_true _ _).mp (List.all_eq_true.mp ends '&' (by simp [closers]))
          have stop := endsAt_behind separate found closes
          simp only [Piece.endsAt, written, Option.any_some] at stop
          rw [isPrefixOf?_eq_some_iff.mp isFirst, List.append_assoc] at scans
          obtain ⟨first, significant⟩ := first?_of_written? written stop
          obtain ⟨ts, rfl, rest⟩ := scans.seen_inv first significant
          obtain ⟨u, w, rfl, behind, reads⟩ := ih later found rest
          exact ⟨token :: u, w, rfl, behind, token, u, written, rfl, reads⟩
      | access =>
          obtain ⟨symbol, optional, rest, access, eq, found⟩ := access_of_captures? found
          rw [eq, List.append_assoc] at scans
          have first := @first?_operator symbol (rest ++ tail) fun d _ => by
            cases symbol <;> cases access <;> rfl
          obtain ⟨ts, rfl, rest⟩ := scans.seen_inv first rfl
          obtain ⟨u, w, rfl, behind, reads⟩ := ih later found rest
          exact ⟨_ :: u, w, rfl, behind, symbol, optional, u, access, rfl, reads⟩
      | ordering ops =>
          obtain ⟨⟨op, rest⟩, isFirst, more⟩ := Option.bind_eq_some_iff.mp found
          obtain ⟨c', matched, rfl⟩ := Option.map_eq_some_iff.mp more
          obtain ⟨mem, eq⟩ := opInFront?_eq_some isFirst
          have stop := endsAt_behind separate matched closes
          rw [eq, List.append_assoc] at scans
          have first := first?_operator op.symbol fun d front => by
            simpa [Token.endsAt] using List.all_eq_true.mp (stop d front) op mem
          obtain ⟨ts, rfl, rest⟩ := scans.seen_inv first rfl
          obtain ⟨u, w, rfl, behind, reads⟩ := ih later matched rest
          exact ⟨_ :: u, w, rfl, behind, op, u, c', mem, rfl, rfl, reads⟩
      | number =>
          obtain ⟨⟨n, rest⟩, isFirst, more⟩ := Option.bind_eq_some_iff.mp found
          obtain ⟨c', matched, rfl⟩ := Option.map_eq_some_iff.mp more
          obtain ⟨⟨whole, fraction, _⟩, digits, same⟩ := Option.map_eq_some_iff.mp isFirst
          cases same
          have stop : closers.all Piece.number.endsAt = true := by decide
          have first := first?_number <| digits?_append tail digits fun d mem => by
            simpa [Piece.endsAt] using List.all_eq_true.mp stop d (closes d mem)
          obtain ⟨ts, rfl, rest⟩ := scans.seen_inv first rfl
          obtain ⟨u, w, rfl, behind, reads⟩ := ih later matched rest
          exact ⟨_ :: u, w, rfl, behind, _, u, c', rfl, rfl, reads⟩

/-! ## The patterns of distances -/

/-- The distance to the closest enemy against a number, by one of the given operators. -/
def distanceBy (ops : List BinaryOp) : Pattern := enemyDistance ++ [.ordering ops, .number]

theorem distanceThreshold_eq : distanceThreshold = distanceBy orderings := rfl

theorem distanceRange_eq :
    distanceRange =
      distanceBy [.greaterEqual, .greater] ++ word "&&" :: distanceBy [.lessEqual, .less] := rfl

end Pattern

end Trigger
