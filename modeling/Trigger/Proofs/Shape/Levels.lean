import Trigger.Proofs.Expr.Nesting
import Trigger.Proofs.Shape.Bare
import Trigger.Proofs.Shape.Spaced
import Trigger.Proofs.Token.Encoding
import Trigger.Proofs.Token.Positions

/-!
# The top level of the tokens of a text

The top level of a text is found on its characters, by a pass that knows nothing of tokens.  Here a
text is scanned, without a comment, and the pass is followed over one token after the other.  Behind
each of them it is outside of strings, and it has counted the brackets among the tokens
(`after?_sources`): a string closes where its token ends, and no other token but a bracket has a
part in the count.

So a text is split by tokens alone, and parentheses are dropped by tokens alone
(`splits_agree_with_tokens`).  The one difference is that a row of operators has places between two
of them where the characters are also those of an operator.  Such a place is never the last one.
-/

namespace Trigger

namespace Lexeme

theorem continuesWord_of_mem {c d : Char} {cs : List Char} (starts : startsWord c = true)
    (continues : cs.all continuesWord = true) (mem : d ∈ c :: cs) : continuesWord d = true := by
  rcases List.mem_cons.mp mem with rfl | mem
  · rw [continuesWord, starts, Bool.true_or]
  · exact List.all_eq_true.mp continues d mem

theorem mem_digitsSource {c : Char} {whole fraction : List Char}
    (mem : c ∈ digitsSource whole fraction) :
    c ∈ whole ∨ c = '.' ∨ c ∈ fraction := by
  cases fraction with
  | nil => exact .inl mem
  | cons d fraction => simpa [digitsSource] using mem

end Lexeme

open Lexeme

/-! ## The brackets among tokens -/

namespace Token

/-- Whether a token closes a bracket. -/
def closes : Token → Bool
  | .delimiter .closeParen | .delimiter .closeBracket | .delimiter .closeBrace => true
  | _ => false

theorem closes_of_opens {token : Token} (opens : token.opens = true) : token.closes = false := by
  cases token with
  | delimiter symbol => cases symbol <;> first | rfl | cases opens
  | _ => rfl

end Token

namespace Span

/-- The characters of some tokens in a row. -/
def sources (spans : List Span) : List Char := spans.flatMap Span.source

/-- How many brackets some tokens open, of whatever kind. -/
def opened (spans : List Span) : Nat := spans.countP (·.token.opens)

/-- How many brackets some tokens close, of whatever kind. -/
def closed (spans : List Span) : Nat := spans.countP (·.token.closes)

/-- The tokens never close more brackets than they open, and in the end they have closed all. -/
def Balanced (spans : List Span) : Prop :=
  (∀ front, front <+: spans → closed front ≤ opened front) ∧ closed spans = opened spans

/-- A token of the operator stands among the tokens where no bracket is open. -/
def OnTop (op : Operator) (spans before : List Span) (span : Span) (after : List Span) : Prop :=
  spans = before ++ span :: after ∧ span.token = .operator op ∧ closed before = opened before

/-- The tokens are those of a text without comments. -/
def Clean (spans : List Span) : Prop :=
  ∀ span ∈ spans, span.token.Spelled span.source ∧ span.token.isComment = false

theorem Clean.cut {before after : List Span} {span : Span}
    (clean : Clean (before ++ span :: after)) :
    Clean before ∧ span.token.Spelled span.source ∧ span.token.isComment = false ∧ Clean after := by
  obtain ⟨first, here⟩ := List.forall_mem_append.mp clean
  obtain ⟨⟨spelled, plain⟩, later⟩ := List.forall_mem_cons.mp here
  exact ⟨first, spelled, plain, later⟩

theorem sources_append (spans more : List Span) :
    sources (spans ++ more) = sources spans ++ sources more := List.flatMap_append

theorem sources_cons (span : Span) (spans : List Span) :
    sources (span :: spans) = span.source ++ sources spans := List.flatMap_cons

/-- A character of some tokens in a row stands in one of them. -/
theorem exists_span {spans : List Span} {left right : List Char} {c : Char}
    (eq : sources spans = left ++ c :: right) :
    ∃ before span after front back, spans = before ++ span :: after ∧
      span.source = front ++ c :: back ∧ left = sources before ++ front ∧
      right = back ++ sources after := by
  induction spans generalizing left with
  | nil => simp [sources] at eq
  | cons span spans ih =>
      rw [sources_cons, List.append_eq_append_iff] at eq
      rcases eq with ⟨more, rfl, eq⟩ | ⟨front, eq, behind⟩
      · obtain ⟨before, later, after, front, back, rfl, within, rfl, rfl⟩ := ih eq
        exact ⟨span :: before, later, after, front, back, rfl, within, by simp [sources_cons], rfl⟩
      · cases front with
        | nil =>
            obtain ⟨before, later, after, front, back, rfl, within, none, rfl⟩ :=
              @ih [] behind.symm
            obtain ⟨empty, rfl⟩ := List.append_eq_nil_iff.mp none.symm
            refine ⟨span :: before, later, after, [], back, rfl, within, ?_, rfl⟩
            rw [sources_cons, empty, eq]
            simp
        | cons d back =>
            obtain ⟨rfl, rfl⟩ := List.cons.inj behind
            exact ⟨[], span, spans, left, back, rfl, eq, rfl, rfl⟩

theorem forall_prefix_cons {P : List Span → Prop} {span : Span} {spans : List Span} :
    (∀ front, front <+: span :: spans → P front) ↔
      P [] ∧ ∀ front, front <+: spans → P (span :: front) := by
  simp only [List.prefix_cons_iff]
  grind

end Span

/-! ## The pass over one token -/

namespace Text.Nesting

open Token (Spelled)

variable {token : Token} {source : List Char} {depth : Nat}

/-- What the pass knows outside of strings. -/
def level (depth : Nat) : Nesting := ⟨depth, none, false⟩

/-- What the pass knows inside a string. -/
def inside (depth : Nat) (quote : Char) : Nesting := ⟨depth, some quote, false⟩

theorem ne_start_of_quote {l : Nesting} {quote : Char} (inside : l.quote = some quote) :
    l ≠ start := by
  rintro rfl
  cases inside

/-- In a string the pass goes over an encoding, and no character of it is on the top level. -/
theorem passed_encodes {quote : Char} {s body : List Char} (encodes : Encodes quote s body)
    (depth : Nat) (d : Char) :
    (inside depth quote).after? body = some (inside depth quote) ∧
      Bare d (inside depth quote) body := by
  have off : inside depth quote ≠ start := ne_start_of_quote rfl
  have off' : ⟨depth, some quote, true⟩ ≠ start := ne_start_of_quote rfl
  induction encodes with
  | nil => exact ⟨rfl, trivial⟩
  | @cons c piece s body first _ ih =>
      have passed : (inside depth quote).after? piece = some (inside depth quote) ∧
          Bare d (inside depth quote) piece := by
        cases first with
        | plain backslash other _ =>
            have next : (inside depth quote).next? c = some (inside depth quote) := by
              simp [next?, inside, backslash, other]
            simp [after?, Bare, next, off]
        | @escaped name _ _ =>
            have next : (inside depth quote).next? '\\' = some ⟨depth, some quote, true⟩ := rfl
            have next' : Nesting.next? ⟨depth, some quote, true⟩ name = some (inside depth quote) :=
              rfl
            simp [after?, Bare, next, next', off, off']
      rw [after?_append, passed.1, Option.bind_some, ih.1]
      exact ⟨rfl, passed.2.append passed.1 ih.2⟩

/-- A string is closed where it ends, and it has no character on the top level but its quotes. -/
theorem passed_string {quote : Char} {contents source : List Char}
    (quoted : quote = '"' ∨ quote = '\'')
    (body : stringBody? quote source = some (contents, source, [])) (depth : Nat) {d : Char}
    (other : d ≠ quote) :
    (level depth).after? (quote :: source) = some (level depth) ∧
      Bare d (level depth) (quote :: source) := by
  obtain ⟨body, encodes, rfl⟩ := encodes_of_stringBody? body
  have apart : '\\' ≠ quote := by rcases quoted with rfl | rfl <;> decide
  have enters : (level depth).next? quote = some (inside depth quote) := by
    rcases quoted with rfl | rfl <;> rfl
  have leaves : (inside depth quote).next? quote = some (level depth) := by
    simp [next?, inside, level, apart.symm]
  obtain ⟨passed, bare⟩ := passed_encodes encodes depth d
  constructor
  · simp [after?, enters, after?_append, passed, leaves]
  · refine ⟨fun same => absurd same.symm other, fun next step => ?_⟩
    cases enters.symm.trans step
    exact bare.append passed ⟨fun same => absurd same.symm other, fun _ _ => trivial⟩

/-- A token without a bracket leaves the pass where it is. -/
theorem after?_flat (spelled : token.Spelled source) (plain : token.isComment = false)
    (opens : token.opens = false) (closes : token.closes = false) :
    (level depth).after? source = some (level depth) := by
  cases spelled with
  | blanks _ gaps =>
      exact after?_of_neutral rfl (all_isNeutral_of_isBlank
        (List.all_eq_true.mpr fun c mem => isBlank_of_isGap (List.all_eq_true.mp gaps c mem)))
  | lineFeed | carriageReturn => exact after?_of_neutral rfl (by decide)
  | blockComment _ | lineComment _ => cases plain
  | @string quote _ _ quoted body =>
      have other : ' ' ≠ quote := by rcases quoted with rfl | rfl <;> decide
      exact (passed_string quoted body depth other).1
  | number _ digits digits' =>
    exact after?_of_neutral rfl (all_isNeutral_digitsSource digits digits')
  | operator symbol => exact after?_of_neutral rfl (by cases symbol <;> decide)
  | delimiter symbol =>
      cases symbol with
      | comma | colon => rfl
      | openBrace | openParen | openBracket => cases opens
      | closeBrace | closeParen | closeBracket => cases closes
  | @word c cs starts continues =>
      refine after?_of_neutral rfl (List.all_eq_true.mpr fun d mem => ?_)
      have none : brackets.all (!continuesWord ·) = true := by decide +kernel
      refine isNeutral_of_not_mem fun bracket => ?_
      have here := List.all_eq_true.mp none d bracket
      rw [continuesWord_of_mem starts continues mem] at here
      cases here

theorem after?_opens (spelled : token.Spelled source) (opens : token.opens = true) :
    (level depth).after? source = some (level (depth + 1)) := by
  cases token with
  | delimiter symbol =>
      obtain rfl := spelled.eq_text rfl
      cases symbol <;> first | rfl | cases opens
  | _ => cases opens

theorem after?_closes (spelled : token.Spelled source) (closes : token.closes = true) :
    (level depth).after? source = if depth = 0 then none else some (level (depth - 1)) := by
  cases token with
  | delimiter symbol =>
      obtain rfl := spelled.eq_text rfl
      cases symbol <;> first | (cases depth <;> rfl) | cases closes
  | _ => cases closes

end Text.Nesting

namespace Text

open Nesting

theorem isBalanced_of_stripParens? {cs inner : List Char} (found : stripParens? cs = some inner) :
    isBalanced inner = true := by
  unfold stripParens? at found
  split at found
  · obtain ⟨closed, same⟩ := Option.ite_none_right_eq_some.mp found
    obtain rfl := Option.some.inj same
    exact (Bool.and_eq_true_iff.mp closed).2
  · cases found

/-- What is dropped are parentheses that hold everything but blanks, around a balanced text. -/
theorem stripParens?_eq_some_iff {cs inner : List Char} :
    stripParens? cs = some inner ↔ ∃ before behind, cs = before ++ '(' :: (inner ++ ')' :: behind) ∧
      before.all isBlank = true ∧ behind.all isBlank = true ∧
      start.after? inner = some start := by
  constructor
  · intro found
    obtain ⟨blank, eq⟩ := all_takeWhile_append (p := isBlank) cs
    obtain ⟨behind, eq', blank'⟩ := stripParens?_eq_some found
    have eq' : cs.dropWhile isBlank = _ := eq'
    rw [eq'] at eq
    refine ⟨_, behind, eq, blank, ?_, isBalanced_iff.mp (isBalanced_of_stripParens? found)⟩
    exact List.all_eq_true.mpr (List.dropWhile_eq_nil_iff.mp blank')
  · rintro ⟨before, behind, rfl, blank, blank', balanced⟩
    exact stripParens?_of_balanced blank blank' balanced

end Text

/-! ## The pass over tokens -/

namespace Span

open Text Nesting

variable {spans : List Span}

/-- Behind clean tokens the pass is outside of strings and has counted their brackets. -/
theorem after?_sources (clean : Clean spans) (depth : Nat) (l : Text.Nesting) :
    (level depth).after? (sources spans) = some l ↔
      (∀ front, front <+: spans → closed front ≤ depth + opened front) ∧
        ∃ rest, depth + opened spans = rest + closed spans ∧ l = level rest := by
  induction spans generalizing depth with
  | nil => simp [sources, after?, opened, closed, eq_comm]
  | cons span spans ih =>
      obtain ⟨⟨spelled, plain⟩, clean⟩ := List.forall_mem_cons.mp clean
      rw [sources_cons, after?_append, forall_prefix_cons]
      cases opens : span.token.opens with
      | true =>
          have closes := Token.closes_of_opens opens
          rw [after?_opens spelled opens, Option.bind_some, ih clean]
          simp [opened, closed, opens, closes, Nat.add_assoc, Nat.add_comm 1]
      | false =>
          cases closes : span.token.closes with
          | true =>
              rw [after?_closes spelled closes]
              cases depth with
              | zero =>
                  rw [if_pos rfl, Option.bind_none]
                  refine iff_of_false (Option.some_ne_none l).symm fun counted => ?_
                  have first := counted.1.2 [] List.nil_prefix
                  simp [opened, closed, opens, closes] at first
              | succ depth =>
                  rw [if_neg depth.succ_ne_zero, Option.bind_some, Nat.add_sub_cancel, ih clean]
                  simp [opened, closed, opens, closes, Nat.add_right_comm depth 1, ← Nat.add_assoc]
          | false =>
              rw [after?_flat spelled plain opens closes, Option.bind_some, ih clean]
              simp [opened, closed, opens, closes]

/-- The pass is back at the start behind tokens that are balanced. -/
theorem after?_sources_iff (clean : Clean spans) :
    Nesting.start.after? (sources spans) = some Nesting.start ↔ Balanced spans := by
  have counted := after?_sources clean 0 Nesting.start
  simp only [Nat.zero_add] at counted
  refine counted.trans (and_congr_right fun _ => ⟨?_, fun same => ⟨0, by omega, rfl⟩⟩)
  rintro ⟨rest, counted, same⟩
  obtain rfl : 0 = rest := congrArg Nesting.depth same
  omega

/-! ## Characters on the top level -/

/-- The token is a symbol that the character is part of. -/
inductive IsSymbolWith (c : Char) : Token → Prop
  | operator {symbol : Operator} : c ∈ symbol.text → IsSymbolWith c (.operator symbol)
  | delimiter {symbol : Delimiter} : c ∈ symbol.text → IsSymbolWith c (.delimiter symbol)

theorem IsSymbolWith.eq {c : Char} {token one : Token} (symbol : IsSymbolWith c token)
    (operators : ∀ symbol : Operator, c ∈ symbol.text → Token.operator symbol = one)
    (delimiters : ∀ symbol : Delimiter, c ∈ symbol.text → Token.delimiter symbol = one) :
    token = one := by
  cases symbol with
  | operator mem => exact operators _ mem
  | delimiter mem => exact delimiters _ mem

/-- The characters of the junctions and the parentheses. -/
def corners : List Char := ['|', '&', '(', ')']

section
variable {token : Token} {source left right front back : List Char} {c : Char}

theorem of_corner (corner : c ∈ corners) :
    continuesWord c = false ∧ c.isDigit = false ∧ c ≠ '.' ∧ isBlank c = false := by
  have all :
    corners.all (fun c => !continuesWord c && !c.isDigit && c != '.' && !isBlank c) = true := by
    decide +kernel
  simpa [and_assoc] using List.all_eq_true.mp all c corner

/-- Where a corner stands on the top level, the token is a symbol. -/
theorem symbol_of_top (spelled : token.Spelled source) (plain : token.isComment = false)
    (corner : c ∈ corners) (within : source = front ++ c :: back) {depth : Nat}
    (top : (level depth).after? front = some Nesting.start) : IsSymbolWith c token := by
  have mem : c ∈ source := by simp [within]
  obtain ⟨word, digit, point, blank⟩ := of_corner corner
  have significant : token.isSignificant = true := by
    cases insignificant : token.isSignificant with
    | true => rfl
    | false =>
        rw [List.all_eq_true.mp (spelled.all_isBlank insignificant plain) c mem] at blank
        cases blank
  cases spelled with
  | operator symbol => exact .operator mem
  | delimiter symbol => exact .delimiter mem
  | @string quote _ _ quoted body =>
      have other : c ≠ quote := by
        rcases quoted with rfl | rfl <;> rintro rfl <;> revert corner <;> decide
      have bare := (passed_string quoted body depth other).2
      rw [within] at bare
      exact absurd top bare.not_top
  | number _ digits digits' =>
      rcases mem_digitsSource mem with mem | rfl | mem
      · rw [List.all_eq_true.mp digits c mem] at digit
        cases digit
      · exact absurd rfl point
      · rw [List.all_eq_true.mp digits' c mem] at digit
        cases digit
  | word starts continues =>
      rw [continuesWord_of_mem starts continues mem] at word
      cases word
  | _ => cases significant

/-- Where a corner stands on the top level of some tokens in a row, a symbol stands among them. -/
theorem exists_symbol (clean : Clean spans) (corner : c ∈ corners)
    (eq : sources spans = left ++ c :: right)
    (top : Nesting.start.after? left = some Nesting.start) :
    ∃ before span after front back, spans = before ++ span :: after ∧
      span.source = front ++ c :: back ∧ left = sources before ++ front ∧
      right = back ++ sources after ∧
      (∃ depth, Nesting.start.after? (sources before) = some (level depth) ∧
        (level depth).after? front = some Nesting.start) ∧ IsSymbolWith c span.token := by
  obtain ⟨before, span, after, front, back, rfl, within, rfl, rfl⟩ := exists_span eq
  obtain ⟨first, spelled, plain, -⟩ := clean.cut
  rw [after?_append] at top
  obtain ⟨l, passed, top⟩ := Option.bind_eq_some_iff.mp top
  obtain ⟨-, depth, -, rfl⟩ := (after?_sources first 0 l).mp passed
  exact ⟨before, span, after, front, back, rfl, within, rfl, rfl, ⟨depth, passed, top⟩,
    symbol_of_top spelled plain corner within top⟩

end

/-! ## Splits -/

/-- The operators that split a text on its top level. -/
def IsJunction (op : Operator) : Prop := op = .and ∨ op = .or

/-- The operator is the character written twice, which stands in no other symbol. -/
structure IsDouble (op : Operator) (c : Char) : Prop where
  corner : c ∈ corners
  text : op.text = [c, c]
  neutral : isNeutral c = true
  own {token : Token} : IsSymbolWith c token → token = .operator op

theorem exists_isDouble {op : Operator} (junction : IsJunction op) : ∃ c, IsDouble op c := by
  rcases junction with rfl | rfl
  · refine ⟨'&', by decide, rfl, rfl, fun found => found.eq ?_ ?_⟩ <;>
      intro symbol <;> cases symbol <;> decide
  · refine ⟨'|', by decide, rfl, rfl, fun found => found.eq ?_ ?_⟩ <;>
      intro symbol <;> cases symbol <;> decide

variable {op : Operator} {before after : List Span} {span : Span}

theorem Balanced.of_onTop (balanced : Balanced spans) (onTop : OnTop op spans before span after) :
    Balanced before := by
  obtain ⟨rfl, -, top⟩ := onTop
  exact ⟨fun front within => balanced.1 front (within.trans (List.prefix_append _ _)), top⟩

/-- Where a token of the operator stands on the top level, the text may be split. -/
theorem OnTop.splits (onTop : OnTop op spans before span after) (clean : Clean spans)
    (balanced : Balanced spans) :
    Splits op.text (sources spans) (sources before) (sources after) := by
  have front := balanced.of_onTop onTop
  obtain ⟨rfl, token, -⟩ := onTop
  obtain ⟨first, spelled, -, -⟩ := clean.cut
  rw [token] at spelled
  refine ⟨?_, (after?_sources_iff first).mpr front⟩
  rw [sources_append, sources_cons, spelled.eq_text rfl]
  simp [Token.text]

/-- Where the character of an operator stands behind its token, it starts the next such token. -/
theorem exists_onTop_behind {c : Char} (double : IsDouble op c) (clean : Clean spans)
    (onTop : OnTop op spans before span after) (balanced : Balanced before) {right : List Char}
    (behind : sources after = c :: right) :
    ∃ between next rest, OnTop op spans (before ++ span :: between) next rest := by
  obtain ⟨rfl, token, -⟩ := onTop
  obtain ⟨first, spelled, plain, later⟩ := clean.cut
  obtain ⟨between, next, rest, front, back, rfl, -, none, -, -, symbol⟩ :=
    exists_symbol later double.corner (behind.trans (List.nil_append _).symm) rfl
  obtain ⟨empty, -⟩ := List.append_eq_nil_iff.mp none.symm
  have passed : Nesting.start.after? span.source = some Nesting.start := by
    rw [token] at spelled
    rw [spelled.eq_text rfl, Token.text, double.text]
    exact after?_of_neutral rfl (by simp [double.neutral])
  have front : Nesting.start.after? (sources (before ++ span :: between)) = some Nesting.start := by
    rw [sources_append, sources_cons, empty, List.append_nil, after?_append,
      (after?_sources_iff first).mpr balanced, Option.bind_some, passed]
  have clean : Clean (before ++ span :: between) :=
    List.forall_mem_append.mpr ⟨first, List.forall_mem_cons.mpr ⟨⟨spelled, plain⟩, later.cut.1⟩⟩
  exact ⟨between, next, rest, by simp, double.own symbol, ((after?_sources_iff clean).mp front).2⟩

/-- Where the text may be split, a token of the operator stands on the top level, there or one
character further on. -/
theorem exists_onTop (junction : IsJunction op) (clean : Clean spans) {left right : List Char}
    (splits : Splits op.text (sources spans) left right) :
    ∃ before span after, OnTop op spans before span after ∧
      left.length ≤ (sources before).length := by
  obtain ⟨c, double⟩ := exists_isDouble junction
  obtain ⟨eq, top⟩ := splits
  rw [double.text, List.append_assoc] at eq
  obtain ⟨before, span, after, front, back, rfl, within, rfl, behind,
    ⟨depth, passed, top⟩, symbol⟩ :=
    exists_symbol clean double.corner eq top
  obtain ⟨first, spelled, -, -⟩ := clean.cut
  have token := double.own symbol
  have source : span.source = [c, c] := by
    rw [token] at spelled
    rw [spelled.eq_text rfl, Token.text, double.text]
  have start : level depth = Nesting.start := by
    have neutral : front.all isNeutral = true := by
      have all : span.source.all isNeutral = true := by simp [source, double.neutral]
      rw [within, List.all_append] at all
      exact (Bool.and_eq_true_iff.mp all).1
    rw [after?_of_neutral rfl neutral] at top
    exact Option.some.inj top
  rw [start] at passed
  have balanced := (after?_sources_iff first).mp passed
  have onTop : OnTop op (before ++ span :: after) before span after := ⟨rfl, token, balanced.2⟩
  rw [source] at within
  cases front with
  | nil => exact ⟨before, span, after, onTop, by simp⟩
  | cons d front =>
      -- The place is between two of a row of operators.
      obtain ⟨rfl, last⟩ := List.cons.inj within
      have last : front ++ c :: back = [c] := last.symm
      obtain ⟨rfl, rfl⟩ : front = [] ∧ back = [] := by
        simpa [List.append_eq_singleton_iff] using last
      obtain ⟨between, next, rest, onTop⟩ :=
        exists_onTop_behind double clean onTop balanced behind.symm
      exact ⟨_, next, rest, onTop, by simp [sources_append, sources_cons, source]⟩

/-- Behind a token of some tokens there are more characters than in front of it. -/
theorem length_sources_lt {before' after' : List Span} {span' : Span} (clean : Clean spans)
    (eq : spans = before ++ span :: after) (eq' : spans = before' ++ span' :: after')
    (shorter : before.length < before'.length) :
    (sources before).length < (sources before').length := by
  have isPrefix : before ++ [span] <+: before' :=
    List.prefix_of_prefix_length_le ⟨after, by simp [eq]⟩ ⟨span' :: after', eq'.symm⟩
      (by simpa [Nat.succ_le_iff] using shorter)
  obtain ⟨more, rfl⟩ := isPrefix
  have spelled := (clean span (by simp [eq])).1
  have some := List.length_pos_iff.mpr spelled.ne_nil
  simp only [sources_append, sources_cons, List.length_append]
  omega

/-- A text is split where the last token of the operator stands on the top level. -/
theorem splitTopLevel?_sources (junction : IsJunction op) (clean : Clean spans) :
    ((splitTopLevel? op.text (sources spans)).isSome = true ↔
      Balanced spans ∧ ∃ before span after, OnTop op spans before span after) ∧
    ∀ left right, splitTopLevel? op.text (sources spans) = some (left, right) →
      sources spans = left ++ op.text ++ right ∧
        ∃ before span after, OnTop op spans before span after ∧ left = sources before ∧
          right = sources after ∧ ∀ before' span' after', OnTop op spans before' span' after' →
            before'.length ≤ before.length := by
  obtain ⟨c, double⟩ := exists_isDouble junction
  have nonempty : op.text ≠ [] := by simp [double.text]
  have neutral : op.text.all isNeutral = true := by simp [double.text, double.neutral]
  constructor
  · constructor
    · intro isSplit
      obtain ⟨⟨left, right⟩, found⟩ := Option.isSome_iff_exists.mp isSplit
      obtain ⟨balanced, splits, -⟩ := splitTopLevel?_eq_some nonempty neutral found
      obtain ⟨before, span, after, onTop, -⟩ := exists_onTop junction clean splits
      exact ⟨(after?_sources_iff clean).mp (isBalanced_iff.mp balanced), before, span, after, onTop⟩
    · rintro ⟨balanced, before, span, after, onTop⟩
      have whole := isBalanced_iff.mpr ((after?_sources_iff clean).mpr balanced)
      exact splitTopLevel?_isSome nonempty neutral whole (onTop.splits clean balanced)
  · intro left right found
    obtain ⟨whole, splits, last⟩ := splitTopLevel?_eq_some nonempty neutral found
    have balanced := (after?_sources_iff clean).mp (isBalanced_iff.mp whole)
    obtain ⟨before, span, after, onTop, further⟩ := exists_onTop junction clean splits
    have here := onTop.splits clean balanced
    have same : left.length = (sources before).length := Nat.le_antisymm further (last _ _ here)
    have parts := splits.1.symm.trans here.1
    rw [List.append_assoc, List.append_assoc] at parts
    obtain ⟨rfl, behind⟩ := List.append_inj parts same
    obtain rfl := List.append_cancel_left behind
    refine ⟨here.1, before, span, after, onTop, rfl, rfl, ?_⟩
    intro before' span' after' onTop'
    refine Nat.le_of_not_lt fun longer => ?_
    have more := length_sources_lt clean onTop.1 onTop'.1 longer
    have bound := last _ _ (onTop'.splits clean balanced)
    omega

/-! ## Parentheses -/

/-- Tokens are blank exactly if the parser sees none of them. -/
theorem significant_eq_nil_iff (clean : Clean spans) :
    significant spans = [] ↔ (sources spans).all isBlank = true := by
  rw [significant, List.filter_eq_nil_iff, sources, List.all_flatMap, List.all_eq_true]
  refine forall₂_congr fun span mem => ?_
  obtain ⟨spelled, plain⟩ := clean span mem
  rw [Bool.not_eq_true]
  constructor
  · intro insignificant
    exact spelled.all_isBlank insignificant plain
  · intro blank
    cases significant : span.token.isSignificant with
    | false => rfl
    | true =>
        obtain ⟨c, source, eq⟩ := List.exists_cons_of_ne_nil spelled.ne_nil
        rw [eq] at blank
        have solid := spelled.head_not_blank significant c (by rw [eq]; rfl)
        rw [(Bool.and_eq_true_iff.mp blank).1] at solid
        cases solid

/-- A parenthesis on the top level of some tokens in a row is one of them. -/
theorem exists_parenthesis (clean : Clean spans) {symbol : Delimiter}
    (parenthesis : symbol = .openParen ∨ symbol = .closeParen) {left right : List Char}
    (eq : sources spans = left ++ (symbol.text ++ right))
    (top : Nesting.start.after? left = some Nesting.start) :
    ∃ before span after, spans = before ++ span :: after ∧ span.token = .delimiter symbol ∧
      left = sources before ∧ right = sources after := by
  obtain ⟨c, corner, text, own⟩ : ∃ c ∈ corners, symbol.text = [c] ∧
      ∀ token, IsSymbolWith c token → token = .delimiter symbol := by
    rcases parenthesis with rfl | rfl
    · refine ⟨'(', by decide, rfl, fun _ found => found.eq ?_ ?_⟩ <;>
        intro symbol <;> cases symbol <;> decide
    · refine ⟨')', by decide, rfl, fun _ found => found.eq ?_ ?_⟩ <;>
        intro symbol <;> cases symbol <;> decide
  rw [text] at eq
  obtain ⟨before, span, after, front, back, rfl, within, rfl, rfl, -, found⟩ :=
    exists_symbol clean corner eq top
  have token := own _ found
  obtain ⟨-, spelled, -, -⟩ := clean.cut
  rw [token] at spelled
  rw [spelled.eq_text rfl, Token.text, text, eq_comm, List.append_eq_singleton_iff] at within
  obtain ⟨rfl, rfl⟩ : front = [] ∧ back = [] := by simpa using within
  exact ⟨before, span, after, rfl, token, List.append_nil _, rfl⟩

/-- Parentheses are dropped that are the first and the last significant token and match. -/
theorem stripParens?_sources (clean : Clean spans) (inner : List Char) :
    stripParens? (sources spans) = some inner ↔
      ∃ lead left inside right trail, spans = lead ++ left :: (inside ++ right :: trail) ∧
        significant lead = [] ∧ left.token = .delimiter .openParen ∧ Balanced inside ∧
        right.token = .delimiter .closeParen ∧ significant trail = [] ∧ inner = sources inside := by
  rw [stripParens?_eq_some_iff]
  constructor
  · rintro ⟨before, behind, eq, blank, blank', balanced⟩
    have top : Nesting.start.after? before = some Nesting.start :=
      after?_of_neutral rfl (all_isNeutral_of_isBlank blank)
    obtain ⟨lead, left, more, rfl, opens, rfl, within⟩ :=
      exists_parenthesis clean (.inl rfl) eq top
    obtain ⟨front, -, -, clean⟩ := clean.cut
    obtain ⟨inside, right, trail, rfl, closes, rfl, rfl⟩ :=
      exists_parenthesis clean (.inr rfl) within.symm balanced
    obtain ⟨within, -, -, last⟩ := clean.cut
    exact ⟨lead, left, inside, right, trail, rfl, (significant_eq_nil_iff front).mpr blank, opens,
      (after?_sources_iff within).mp balanced, closes,
      (significant_eq_nil_iff last).mpr blank', rfl⟩
  · rintro ⟨lead, left, inside, right, trail, rfl, blank, opens, balanced, closes, blank', rfl⟩
    obtain ⟨front, spelled, -, clean⟩ := clean.cut
    obtain ⟨within, spelled', -, last⟩ := clean.cut
    rw [opens] at spelled
    rw [closes] at spelled'
    refine ⟨sources lead, sources trail, ?_, (significant_eq_nil_iff front).mp blank,
      (significant_eq_nil_iff last).mp blank', (after?_sources_iff within).mpr balanced⟩
    simp only [sources_append, sources_cons, spelled.eq_text rfl, spelled'.eq_text rfl]
    rfl

/-! ## Texts -/

/-- The top level of the characters of a text is that of its tokens.  A text is split where the last
token of the operator stands that is in no bracket, if the brackets among the tokens are balanced.
Its parentheses are dropped if they are its first and its last significant token and match: the
brackets between them are balanced. -/
theorem splits_agree_with_tokens {cs : List Char} {spans : List Span}
    (scanned : Token.ofText cs = .ok spans)
    (plain : ∀ span ∈ spans, span.token.isComment = false) :
    (∀ op, IsJunction op →
      ((splitTopLevel? op.text cs).isSome = true ↔
        Balanced spans ∧ ∃ before span after, OnTop op spans before span after) ∧
      ∀ left right, splitTopLevel? op.text cs = some (left, right) →
        cs = left ++ op.text ++ right ∧
          ∃ before span after, OnTop op spans before span after ∧ left = sources before ∧
            right = sources after ∧ ∀ before' span' after', OnTop op spans before' span' after' →
              before'.length ≤ before.length) ∧
    ∀ inner, stripParens? cs = some inner ↔
      ∃ lead left inside right trail, spans = lead ++ left :: (inside ++ right :: trail) ∧
        significant lead = [] ∧ left.token = .delimiter .openParen ∧ Balanced inside ∧
        right.token = .delimiter .closeParen ∧ significant trail = [] ∧ inner = sources inside := by
  have clean : Clean spans := fun span mem =>
    ⟨spelled_of_scanWithin scanned span mem, plain span mem⟩
  have whole : sources spans = cs := ((Token.exact_scan [] cs).spans spans scanned).1
  subst whole
  exact ⟨fun op junction => splitTopLevel?_sources junction clean, stripParens?_sources clean⟩

/-- Brackets and an operator in a string, and two operators in a row. -/
def rowText : List Char := "(a || '||)') || [b]|||| c".toList

/-- What stands in a string does not count, and of the operators in a row the second one is the
last. -/
theorem splits_agree_with_tokens_row :
    ∃ spans, Token.ofText rowText = .ok spans ∧ (∀ span ∈ spans, span.token.isComment = false) ∧
      Balanced spans ∧ ∃ before span after, OnTop .or spans before span after ∧
        "(a || '||)') || [b]||".toList = sources before ∧ " c".toList = sources after := by
  have known : (Token.ofText rowText).toOption.map (·.all (!·.token.isComment)) = some true := by
    decide +kernel
  have split : splitTopLevel? Operator.or.text rowText =
      some ("(a || '||)') || [b]||".toList, " c".toList) := by decide +kernel
  cases scanned : Token.ofText rowText with
  | error e => simp [scanned, Except.toOption] at known
  | ok spans =>
      have plain : ∀ span ∈ spans, span.token.isComment = false := by
        simpa [scanned, Except.toOption] using known
      obtain ⟨isSplit, parts⟩ := (splits_agree_with_tokens scanned plain).1 .or (.inr rfl)
      obtain ⟨-, before, span, after, onTop, left, right, -⟩ := parts _ _ split
      rw [split] at isSplit
      exact ⟨spans, rfl, plain, (isSplit.mp rfl).1, before, span, after, onTop, left, right⟩

end Span

end Trigger
