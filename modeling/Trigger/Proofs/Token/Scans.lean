import Trigger.Proofs.Expr.Exact

/-!
# What a text scans into

`Scans cs ts` says that the text `cs` is cut into tokens by `Lexeme.first?`, and that `ts` are those
that the parser sees.  It knows no positions, so it speaks of a text and of what stands behind it in
the same way: the lemmas below take the first token off a text.

A text that scans has no blank characters but spaces, tabs and the ends of lines, since no token
starts with another one.  So the blanks in front of it may be dropped.
-/

namespace Trigger

open Lexeme

/-- The significant tokens that a text is cut into. -/
inductive Scans : List Char → List Token → Prop
  | nil : Scans [] []
  | seen {cs source rest : List Char} {token : Token} {ts : List Token} :
      first? cs = some ⟨token, source, rest⟩ → token.isSignificant = true → Scans rest ts →
      Scans cs (token :: ts)
  | skipped {cs source rest : List Char} {token : Token} {ts : List Token} :
      first? cs = some ⟨token, source, rest⟩ → token.isSignificant = false → Scans rest ts →
      Scans cs ts

/-- A scan that succeeds is at the end, or cuts the first token off and goes on. -/
theorem scanWithin_ok_inv {fuel : Nat} {p : Position} {cs : List Char} {spans : List Span}
    (scanned : (Token.scanWithin fuel p cs).1 = .ok spans) :
    cs = [] ∧ spans = [] ∨ ∃ more token source rest later,
      first? cs = some ⟨token, source, rest⟩ ∧ spans = ⟨token, source, p⟩ :: later ∧
        (Token.scanWithin more (p.after source) rest).1 = .ok later := by
  cases cs with
  | nil =>
      left
      cases fuel <;> cases scanned <;> exact ⟨rfl, rfl⟩
  | cons c cs =>
      right
      cases fuel with
      | zero => cases scanned
      | succ fuel =>
          cases found : first? (c :: cs) with
          | none => simp [Token.scanWithin, found] at scanned
          | some lexeme =>
              obtain ⟨token, source, rest⟩ := lexeme
              simp only [Token.scanWithin, found] at scanned
              cases behind : (Token.scanWithin fuel (p.after source) rest).1 with
              | error e => simp [behind, Except.map] at scanned
              | ok later =>
                  simp only [behind, Except.map, Except.ok.injEq] at scanned
                  exact ⟨fuel, token, source, rest, later, rfl, scanned.symm, behind⟩

theorem scans_of_scanWithin {fuel : Nat} {p : Position} {cs : List Char} {spans : List Span}
    (scanned : (Token.scanWithin fuel p cs).1 = .ok spans) :
    Scans cs (Expr.significantTokens spans) := by
  induction spans generalizing fuel p cs with
  | nil =>
      obtain ⟨rfl, -⟩ | ⟨_, _, _, _, _, -, eq, -⟩ := scanWithin_ok_inv scanned
      · exact .nil
      · cases eq
  | cons span spans ih =>
      obtain ⟨-, eq⟩ | ⟨more, token, source, rest, later, found, eq, behind⟩ :=
        scanWithin_ok_inv scanned
      · cases eq
      · cases eq
        have rest := ih behind
        cases significant : token.isSignificant with
        | true =>
            simp only [Expr.significantTokens, Span.significant, significant,
              List.filter_cons_of_pos, List.map_cons]
            exact .seen found significant rest
        | false =>
            simp only [Expr.significantTokens, Span.significant, significant, List.filter_cons,
              Bool.false_eq_true, if_false]
            exact .skipped found significant rest

theorem scans_of_ofText {cs : List Char} {all : List Span} (scanned : Token.ofText cs = .ok all) :
    Scans cs (Expr.significantTokens all) :=
  scans_of_scanWithin scanned

namespace Scans

theorem seen_inv {cs source rest : List Char} {token : Token} {ts : List Token}
    (scans : Scans cs ts) (found : first? cs = some ⟨token, source, rest⟩)
    (significant : token.isSignificant = true) : ∃ ts', ts = token :: ts' ∧ Scans rest ts' := by
  cases scans with
  | nil => cases found
  | seen found' _ behind =>
      cases found.symm.trans found'
      exact ⟨_, rfl, behind⟩
  | skipped found' skips _ =>
      cases found.symm.trans found'
      rw [significant] at skips
      cases skips

theorem nil_inv {ts : List Token} (scans : Scans [] ts) : ts = [] := by
  cases scans with
  | nil => rfl
  | seen found _ _ => cases found
  | skipped found _ _ => cases found

end Scans

/-! ## Blanks -/

/-- The code points in the ranges of a table. -/
def points (ranges : Text.Ranges) : List Nat :=
  ranges.flatMap fun (low, high) => List.range' low (high + 1 - low)

theorem mem_points {ranges : Text.Ranges} {n : Nat} (covered : ranges.covers n = true) :
    n ∈ points ranges := by
  induction ranges with
  | nil => cases covered
  | cons range ranges ih =>
      obtain ⟨low, high⟩ := range
      simp only [Text.Ranges.covers] at covered
      split at covered
      · cases covered
      · rw [Bool.or_eq_true, decide_eq_true_eq] at covered
        rw [points, List.flatMap_cons, List.mem_append]
        cases covered with
        | inl le =>
            left
            rw [List.mem_range'_1]
            omega
        | inr later => exact .inr (ih later)

/-- The characters that comments, strings and symbols start with. -/
def marks : List Char :=
  ['/', '"', '\''] ++ Operator.all.filterMap (·.text.head?) ++
    Delimiter.all.filterMap (·.text.head?)

theorem isPrefixOf?_nil (cs : List Char) : [].isPrefixOf? cs = some cs := rfl

theorem isPrefixOf?_cons (c d : Char) (text cs : List Char) :
    (c :: text).isPrefixOf? (d :: cs) = if c == d then text.isPrefixOf? cs else none := rfl

theorem isPrefixOf?_eq_none {c : Char} {cs text : List Char} (nonempty : text ≠ [])
    (apart : text.head? ≠ some c) : text.isPrefixOf? (c :: cs) = none := by
  cases text with
  | nil => contradiction
  | cons d text =>
      have differs : (d == c) = false := by simpa using apart
      simp [isPrefixOf?_cons, differs]

theorem isPrefixOf?_eq_some_iff {text cs rest : List Char} :
    text.isPrefixOf? cs = some rest ↔ cs = text ++ rest := by
  induction text generalizing cs with
  | nil => simp [isPrefixOf?_nil, eq_comm]
  | cons c text ih =>
      cases cs with
      | nil => exact ⟨nofun, nofun⟩
      | cons d cs =>
          rw [isPrefixOf?_cons, Option.ite_none_right_eq_some, beq_iff_eq, ih, List.cons_append,
            List.cons.injEq, eq_comm]

/-- No symbol stands in front of a text that starts with none of the marks. -/
theorem symbol_eq_none {c : Char} (cs : List Char) (unmarked : c ∉ marks) :
    operator? (c :: cs) = none ∧ delimiter? (c :: cs) = none := by
  simp only [marks, List.mem_append, List.mem_filterMap, not_or, not_exists, not_and] at unmarked
  obtain ⟨⟨-, operators⟩, delimiters⟩ := unmarked
  constructor
  · refine List.findSome?_eq_none_iff.mpr ?_
    intro symbol mem
    rw [isPrefixOf?_eq_none (by cases symbol <;> simp [Operator.text]) (operators symbol mem)]
    rfl
  · refine List.findSome?_eq_none_iff.mpr ?_
    intro symbol mem
    rw [isPrefixOf?_eq_none (by cases symbol <;> simp [Delimiter.text]) (delimiters symbol mem)]
    rfl

/-- No comment and no string stands in front of a text that starts with none of the marks. -/
theorem comment_eq_none {c : Char} (cs : List Char) (unmarked : c ∉ marks) :
    comment? (c :: cs) = none ∧ string? (c :: cs) = none := by
  have slash : '/' ≠ c := by rintro rfl; exact unmarked (by decide)
  have double : c ≠ '"' := by rintro rfl; exact unmarked (by decide)
  have single : c ≠ '\'' := by rintro rfl; exact unmarked (by decide)
  constructor
  · simp [comment?, blockComment?, lineComment?, isPrefixOf?_cons, slash]
  · simp [string?, double, single]

/-- A text that starts with an unmarked character starts with a gap, the end of a line, a number or
a word. -/
theorem first?_of_unmarked {c : Char} (cs : List Char) (unmarked : c ∉ marks) :
    first? (c :: cs) = (blanks? (c :: cs)).or
      ((lineBreak? (c :: cs)).or ((number? (c :: cs)).or (word? (c :: cs)))) := by
  obtain ⟨operator, delimiter⟩ := symbol_eq_none cs unmarked
  obtain ⟨comment, string⟩ := comment_eq_none cs unmarked
  simp only [first?, rules, List.findSome?_cons, List.findSome?_nil, literal?, operator, delimiter,
    comment, string]
  cases blanks? (c :: cs) <;> cases lineBreak? (c :: cs) <;> cases number? (c :: cs) <;>
    cases word? (c :: cs) <;> rfl

theorem number?_eq_none {c : Char} {cs : List Char} (digit : c.isDigit = false) :
    number? (c :: cs) = none := by
  simp [number?, digits?, Number.spanDigits, digit]

theorem blanks?_eq_none {c : Char} {cs : List Char} (gap : isGap c = false) :
    blanks? (c :: cs) = none := by
  simp [blanks?, gap]

theorem lineBreak?_eq_none {c : Char} {cs : List Char} (ends : endsLine c = false) :
    lineBreak? (c :: cs) = none := by
  unfold lineBreak?
  split
  · rename_i eq
    cases eq
    cases ends
  · rename_i eq
    cases eq
    cases ends
  · rfl

theorem mem_range_of_isDigit {c : Char} (digit : c.isDigit = true) :
    c.toNat ∈ List.range' 48 10 := by
  simp only [Char.isDigit, Bool.and_eq_true, decide_eq_true_eq, ge_iff_le,
    UInt32.le_iff_toNat_le] at digit
  exact List.mem_range'_1.mpr ⟨digit.1, Nat.lt_succ_of_le digit.2⟩

/-- A blank character starts no token, and goes on with none, unless it separates tokens. -/
theorem of_isBlank {c : Char} (blank : Text.isBlank c = true) :
    c ∉ marks ∧ continuesWord c = false ∧ c.isDigit = false ∧ c ≠ '.' ∧ c ≠ '=' := by
  have all : ∀ n ∈ points Text.blankRanges,
      n ∉ marks.map Char.toNat ∧ Text.letterRanges.covers n = false ∧
        Text.numeralRanges.covers n = false ∧ n ≠ '_'.toNat ∧ n ≠ '$'.toNat ∧
        n ∉ List.range' 48 10 := by decide +kernel
  obtain ⟨unmarked, letter, numeral, underscore, dollar, digit⟩ := all c.toNat (mem_points blank)
  have here : c ∉ marks := fun mem => unmarked (List.mem_map_of_mem mem)
  refine ⟨here, ?_, ?_, ?_, ?_⟩
  · have underscore : c ≠ '_' := by rintro rfl; exact underscore rfl
    have dollar : c ≠ '$' := by rintro rfl; exact dollar rfl
    simp [continuesWord, startsWord, Text.isLetter, Text.isNumeral, letter, numeral, underscore,
      dollar]
  · cases digital : c.isDigit with
    | false => rfl
    | true => exact absurd (mem_range_of_isDigit digital) digit
  · rintro rfl
    exact here (by decide)
  · rintro rfl
    exact here (by decide)

theorem isBlank_of_isGap {c : Char} (gap : isGap c = true) : Text.isBlank c = true := by
  simp only [isGap, Bool.or_eq_true, decide_eq_true_eq] at gap
  rcases gap with rfl | rfl <;> decide

theorem trimStart_dropWhile (cs : List Char) :
    Text.trimStart (cs.dropWhile isGap) = Text.trimStart cs := by
  induction cs with
  | nil => rfl
  | cons c cs ih =>
      cases gap : isGap c with
      | false => rw [List.dropWhile_cons_of_neg (by simp [gap])]
      | true =>
          rw [List.dropWhile_cons_of_pos gap, ih, Text.trimStart, Text.trimStart,
            List.dropWhile_cons_of_pos (isBlank_of_isGap gap)]

theorem first?_of_isBlank {c : Char} (cs : List Char) (blank : Text.isBlank c = true) :
    first? (c :: cs) = (blanks? (c :: cs)).or (lineBreak? (c :: cs)) := by
  obtain ⟨unmarked, word, digit, -, -⟩ := of_isBlank blank
  have starts : startsWord c = false := (Bool.or_eq_false_iff.mp word).1
  rw [first?_of_unmarked cs unmarked, number?_eq_none digit]
  simp [word?, starts]

/-- The first token of a text is behind the blanks, or it is some of them. -/
theorem trimStart_of_first? {cs source rest : List Char} {token : Token}
    (found : first? cs = some ⟨token, source, rest⟩) :
    Text.trimStart cs = cs ∨
      token.isSignificant = false ∧ Text.trimStart cs = Text.trimStart rest := by
  cases cs with
  | nil => cases found
  | cons c cs =>
      cases blank : Text.isBlank c with
      | false => exact .inl (List.dropWhile_cons_of_neg (by simp [blank]))
      | true =>
          right
          rw [first?_of_isBlank cs blank] at found
          cases gap : isGap c with
          | true =>
              rw [← trimStart_dropWhile (c :: cs)]
              simp only [blanks?, List.takeWhile_cons, gap, if_true, Option.some_or,
                Option.some.injEq, Lexeme.mk.injEq] at found
              obtain ⟨rfl, -, rfl⟩ := found
              exact ⟨rfl, rfl⟩
          | false =>
              rw [blanks?_eq_none gap, Option.none_or] at found
              unfold lineBreak? at found
              split at found
              · rename_i eq
                cases eq
                cases found
                exact ⟨rfl, rfl⟩
              · rename_i eq
                cases eq
                cases found
                exact ⟨rfl, rfl⟩
              · cases found

/-- The blanks in front of a text may be dropped. -/
theorem Scans.trimStart {cs : List Char} {ts : List Token} (scans : Scans cs ts) :
    Scans (Text.trimStart cs) ts := by
  induction scans with
  | nil => exact .nil
  | seen found significant behind _ =>
      rcases trimStart_of_first? found with same | ⟨skips, -⟩
      · rw [same]
        exact .seen found significant behind
      · rw [significant] at skips
        cases skips
  | skipped found insignificant behind ih =>
      rcases trimStart_of_first? found with same | ⟨-, same⟩
      · rw [same]
        exact .skipped found insignificant behind
      · rw [same]
        exact ih

/-! ## Words, symbols and numbers -/

/-- Whether a character starts a word, and no token of another kind. -/
def isPlain (c : Char) : Bool :=
  startsWord c && !marks.contains c && !isGap c && !endsLine c && !c.isDigit

theorem first?_word {c : Char} {cs rest : List Char} (plain : isPlain c = true)
    (word : cs.all continuesWord = true) (stop : ∀ d ∈ rest.head?, continuesWord d = false) :
    first? (c :: (cs ++ rest)) = some ⟨ofWord (c :: cs), c :: cs, rest⟩ := by
  simp only [isPlain, Bool.and_eq_true, Bool.not_eq_true', List.contains_eq_mem,
    decide_eq_false_iff_not] at plain
  obtain ⟨⟨⟨⟨starts, unmarked⟩, gap⟩, ends⟩, digit⟩ := plain
  have stops : rest.takeWhile continuesWord = [] ∧ rest.dropWhile continuesWord = rest := by
    cases rest with
    | nil => exact ⟨rfl, rfl⟩
    | cons d rest =>
        have differs := stop d rfl
        simp [differs]
  have all := List.all_eq_true.mp word
  rw [first?_of_unmarked _ unmarked, blanks?_eq_none gap, lineBreak?_eq_none ends,
    number?_eq_none digit]
  simp [word?, starts, List.takeWhile_append_of_pos all, List.dropWhile_append_of_pos all, stops]

theorem first?_delimiter (symbol : Delimiter) (rest : List Char) :
    first? (symbol.text ++ rest) = some ⟨.delimiter symbol, symbol.text, rest⟩ := by
  cases symbol <;> rfl

/-- Whether the text of an operator starts a longer operator or a comment, with a character
behind. -/
def extends? : Operator → Char → Bool
  | .less, c | .greater, c | .not, c => c = '='
  | .divide, c => c = '/' || c = '*'
  | _, _ => false

theorem first?_of_operator? {cs : List Char} {lexeme : Lexeme} (blanks : blanks? cs = none)
    (lineBreak : lineBreak? cs = none) (comment : comment? cs = none) (literal : literal? cs = none)
    (found : operator? cs = some lexeme) : first? cs = some lexeme := by
  simp only [first?, rules, List.findSome?_cons, blanks, lineBreak, comment, literal, found]

theorem first?_operator (symbol : Operator) {rest : List Char}
    (stop : ∀ c ∈ rest.head?, extends? symbol c = false) :
    first? (symbol.text ++ rest) = some ⟨.operator symbol, symbol.text, rest⟩ := by
  cases rest with
  | nil => cases symbol <;> rfl
  | cons c rest =>
      have differs := stop c rfl
      cases symbol with
      | less | greater | not =>
          have apart : ('=' == c) = false :=
            beq_false_of_ne (Ne.symm (of_decide_eq_false differs))
          refine first?_of_operator? rfl rfl rfl rfl ?_
          simp [operator?, Operator.all, Operator.text, isPrefixOf?_cons, isPrefixOf?_nil, apart]
      | divide =>
          obtain ⟨slash, star⟩ := Bool.or_eq_false_iff.mp differs
          have slash : ('/' == c) = false := beq_false_of_ne (Ne.symm (of_decide_eq_false slash))
          have star : ('*' == c) = false := beq_false_of_ne (Ne.symm (of_decide_eq_false star))
          refine first?_of_operator? rfl rfl ?_ rfl rfl
          simp [comment?, blockComment?, lineComment?, Operator.text, isPrefixOf?_cons, slash, star]
      | _ => rfl

/-- Whether a text is a word that starts with a plain character. -/
def isPlainWord : List Char → Bool
  | c :: cs => isPlain c && cs.all continuesWord
  | [] => false

/-- The token that a word or a symbol is. -/
def Token.written? (cs : List Char) : Option Token :=
  ((Operator.ofText? cs).map .operator).or <|
    ((Delimiter.all.find? (·.text = cs)).map .delimiter).or <|
      if isPlainWord cs then some (ofWord cs) else none

/-- Whether a token that is a word or a symbol ends in front of a character. -/
def Token.endsAt : Token → Char → Bool
  | .operator symbol, c => !extends? symbol c
  | .delimiter _, _ => true
  | _, c => !continuesWord c

theorem isSignificant_ofWord (word : List Char) :
    (ofWord word).isSignificant = true ∧ ∀ c, (ofWord word).endsAt c = !continuesWord c := by
  unfold ofWord
  cases Keyword.ofText? word <;> exact ⟨rfl, fun _ => rfl⟩

/-- A word or a symbol is the first token, where it ends. -/
theorem first?_of_written? {cs rest : List Char} {token : Token}
    (written : Token.written? cs = some token) (stop : ∀ c ∈ rest.head?, token.endsAt c = true) :
    first? (cs ++ rest) = some ⟨token, cs, rest⟩ ∧ token.isSignificant = true := by
  rw [Token.written?, Option.or_eq_some_iff, Option.or_eq_some_iff] at written
  rcases written with operator | ⟨-, delimiter | ⟨-, word⟩⟩
  · obtain ⟨symbol, found, rfl⟩ := Option.map_eq_some_iff.mp operator
    obtain rfl : symbol.text = cs := by simpa using List.find?_some found
    exact ⟨first?_operator symbol fun c mem => by simpa [Token.endsAt] using stop c mem, rfl⟩
  · obtain ⟨symbol, found, rfl⟩ := Option.map_eq_some_iff.mp delimiter
    obtain rfl : symbol.text = cs := by simpa using List.find?_some found
    exact ⟨first?_delimiter symbol rest, rfl⟩
  · rw [Option.ite_none_right_eq_some, Option.some.injEq] at word
    obtain ⟨plain, rfl⟩ := word
    obtain ⟨significant, ends⟩ := isSignificant_ofWord cs
    cases cs with
    | nil => cases plain
    | cons c cs =>
        obtain ⟨starts, continues⟩ := Bool.and_eq_true_iff.mp plain
        refine ⟨first?_word starts continues fun d mem => ?_, significant⟩
        simpa [ends] using stop d mem

theorem Token.endsAt_of_isBlank {c : Char} (token : Token) (blank : Text.isBlank c = true) :
    token.endsAt c = true := by
  obtain ⟨unmarked, continues, -, -, equals⟩ := of_isBlank blank
  have slash : c ≠ '/' := by rintro rfl; exact unmarked (by decide)
  have star : c ≠ '*' := by rintro rfl; exact unmarked (by decide)
  cases token with
  | operator symbol => cases symbol <;> simp [Token.endsAt, extends?, equals, slash, star]
  | delimiter symbol => rfl
  | _ => simp [Token.endsAt, continues]

theorem first?_number {cs whole fraction rest : List Char}
    (found : digits? cs = some (whole, fraction, rest)) :
    first? cs = some
      ⟨.number (Number.ofFixed whole fraction 0), digitsSource whole fraction, rest⟩ := by
  have number : number? cs = some
      ⟨.number (Number.ofFixed whole fraction 0), digitsSource whole fraction, rest⟩ := by
    simp [number?, found]
  cases cs with
  | nil => cases found
  | cons c cs =>
      cases digit : c.isDigit with
      | false =>
          rw [number?_eq_none digit] at number
          cases number
      | true =>
          have unmarked : c ∉ marks := by
            intro mem
            have none : marks.all (!·.isDigit) = true := by decide
            have here := List.all_eq_true.mp none c mem
            rw [digit] at here
            cases here
          have gap : isGap c = false := by
            cases gap : isGap c with
            | false => rfl
            | true =>
                rw [(of_isBlank (isBlank_of_isGap gap)).2.2.1] at digit
                cases digit
          have ends : endsLine c = false := by
            cases ends : endsLine c with
            | false => rfl
            | true =>
                simp only [endsLine, Bool.or_eq_true, decide_eq_true_eq] at ends
                rcases ends with rfl | rfl <;> cases digit
          rw [first?_of_unmarked cs unmarked, blanks?_eq_none gap, lineBreak?_eq_none ends, number]
          rfl

theorem spanDigits_append {cs tail : List Char} (stop : ∀ c ∈ tail.head?, c.isDigit = false) :
    Number.spanDigits (cs ++ tail) =
      ((Number.spanDigits cs).1, (Number.spanDigits cs).2 ++ tail) := by
  simp only [Number.spanDigits]
  induction cs with
  | nil =>
      cases tail with
      | nil => rfl
      | cons c tail => simp [stop c rfl]
  | cons c cs ih =>
      cases digit : c.isDigit with
      | false => simp [digit]
      | true => simpa [digit] using ih

theorem fraction?_of_ne {c : Char} (cs : List Char) (apart : c ≠ '.') :
    fraction? (c :: cs) = none := by
  unfold fraction?
  split
  · rename_i eq
    cases eq
    contradiction
  · rfl

theorem fraction?_append {cs tail : List Char}
    (stop : ∀ c ∈ tail.head?, c.isDigit = false ∧ c ≠ '.') :
    fraction? (cs ++ tail) = (fraction? cs).map fun (digits, rest) => (digits, rest ++ tail) := by
  have digits : ∀ c ∈ tail.head?, c.isDigit = false := fun c mem => (stop c mem).1
  cases cs with
  | nil =>
      cases tail with
      | nil => rfl
      | cons c tail => exact fraction?_of_ne tail (stop c rfl).2
  | cons c cs =>
      by_cases point : c = '.'
      · subst point
        simp only [List.cons_append, fraction?, spanDigits_append digits]
        obtain ⟨first, rest⟩ := Number.spanDigits cs
        cases first <;> rfl
      · rw [List.cons_append, fraction?_of_ne _ point, fraction?_of_ne _ point]
        rfl

/-- Behind digits nothing changes with a text that starts with neither a digit nor a point. -/
theorem digits?_append {cs whole fraction rest : List Char} (tail : List Char)
    (found : digits? cs = some (whole, fraction, rest))
    (stop : ∀ c ∈ tail.head?, c.isDigit = false ∧ c ≠ '.') :
    digits? (cs ++ tail) = some (whole, fraction, rest ++ tail) := by
  have digits : ∀ c ∈ tail.head?, c.isDigit = false := fun c mem => (stop c mem).1
  simp only [digits?, spanDigits_append digits] at found ⊢
  generalize Number.spanDigits cs = spanned at found ⊢
  obtain ⟨first, behind⟩ := spanned
  cases first with
  | nil => cases found
  | cons d first =>
      simp only [fraction?_append stop] at found ⊢
      cases point : fraction? behind with
      | none =>
          simp only [point, Option.some.injEq, Prod.mk.injEq] at found
          obtain ⟨rfl, rfl, rfl⟩ := found
          rfl
      | some pair =>
          simp only [point, Option.some.injEq, Prod.mk.injEq] at found
          obtain ⟨rfl, rfl, rfl⟩ := found
          rfl

end Trigger
