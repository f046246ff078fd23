import Trigger.Proofs.Expr.Flat
import Trigger.Proofs.Token.Separators

/-!
# Canonical texts are scanned into canonical tokens

`Token.text` writes a token, and the canonical text of an expression is these texts of its tokens in
a row, with a blank here and there.  So the text is cut into the tokens again if each text spells
its token and every token stops where the next one starts.

A name or a literal stops in front of every text that ends an operand (`EndsOperand`).  `Writes`
says of a text that it is cut into tokens in front of each of these.
-/

namespace Trigger

open Lexeme Token

/-- An operand does not go on into the text. -/
structure EndsOperand (tail : List Char) : Prop where
  word : ∀ c ∈ tail.head?, continuesWord c = false
  digit : ∀ c ∈ tail.head?, c.isDigit = false
  point : fraction? tail = none

theorem endsOperand_nil : EndsOperand [] := ⟨nofun, nofun, rfl⟩

theorem endsOperand_cons {c : Char} (mem : c ∈ ['(', ')', '[', ']', '\x7d', ',', ':', ' ', '?'])
    (tail : List Char) : EndsOperand (c :: tail) := by
  have known : ['(', ')', '[', ']', '\x7d', ',', ':', ' ', '?'].all
      (fun d => !continuesWord d && !d.isDigit && d != '.') = true := by decide +kernel
  have here := List.all_eq_true.mp known c mem
  simp only [Bool.and_eq_true, Bool.not_eq_true', bne_iff_ne] at here
  obtain ⟨⟨word, digit⟩, apart⟩ := here
  refine ⟨?_, ?_, fraction?_of_ne tail apart⟩
  · rintro _ ⟨⟩
    exact word
  · rintro _ ⟨⟩
    exact digit

theorem Token.Spelled.name_inv {word : String} {source : List Char}
    (spelled : (Token.name word).Spelled source) :
    ∃ c cs, source = c :: cs ∧ startsWord c = true := by
  generalize same : Token.name word = token at spelled
  cases spelled with
  | word starts _ => exact ⟨_, _, rfl, starts⟩
  | _ => cases same

/-- A point with a name behind it is no fraction. -/
theorem endsOperand_access {word : String} (spelled : (Token.name word).Spelled word.toList)
    (optional : Bool) (tail : List Char) :
    EndsOperand (Link.accessText optional ++ word.toList ++ tail) := by
  cases optional with
  | true => exact endsOperand_cons (by decide) _
  | false =>
      obtain ⟨c, cs, eq, starts⟩ := spelled.name_inv
      have digit : c.isDigit = false := by
        have plain := isPlain_of_startsWord starts
        simp only [isPlain, Bool.and_eq_true, Bool.not_eq_true'] at plain
        exact plain.2
      have word : continuesWord '.' = false := by decide +kernel
      rw [eq]
      refine ⟨?_, ?_, ?_⟩
      · rintro _ ⟨⟩
        exact word
      · rintro _ ⟨⟩
        rfl
      · simp [Link.accessText, Operator.text, fraction?, Number.spanDigits, digit]

/-! ## Texts of tokens -/

/-- In front of every text that ends an operand, the text is cut into the tokens. -/
def Writes (cs : List Char) (ts : List Token) : Prop :=
  ∀ tail rest, EndsOperand tail → Scans tail rest → Scans (cs ++ tail) (ts ++ rest)

/-- Whatever stands behind the text, it ends an operand. -/
def Opens (cs : List Char) : Prop := ∀ tail, EndsOperand tail → EndsOperand (cs ++ tail)

namespace Scans

variable {tail : List Char} {ts : List Token}

theorem delimiter (symbol : Delimiter) (scans : Scans tail ts) :
    Scans (symbol.text ++ tail) (.delimiter symbol :: ts) :=
  .seen (first?_delimiter symbol tail) rfl scans

theorem operator {symbol : Operator} (stop : ∀ c ∈ tail.head?, extends? symbol c = false)
    (scans : Scans tail ts) : Scans (symbol.text ++ tail) (.operator symbol :: ts) :=
  .seen (first?_operator symbol stop) rfl scans

theorem name {word : String} (spelled : (Token.name word).Spelled word.toList)
    (ends : EndsOperand tail) (scans : Scans tail ts) :
    Scans (word.toList ++ tail) (.name word :: ts) :=
  .seen (spelled.first? ends.word) rfl scans

theorem literal {value : Literal} (spelled : value.token.Spelled value.text)
    (ends : EndsOperand tail) (scans : Scans tail ts) :
    Scans (value.text ++ tail) (value.token :: ts) := by
  have stops : value.token.Stops tail := by
    rcases value with _ | _ | (_ | _) | _ | _
    · exact ⟨ends.digit, ends.point⟩
    · trivial
    all_goals exact ends.word
  have significant : value.token.isSignificant = true := by
    rcases value with _ | _ | (_ | _) | _ | _ <;> rfl
  exact .seen (spelled.first? stops) significant scans

end Scans

namespace Writes

variable {a b : List Char} {u w : List Token}

theorem nil : Writes [] [] := fun _ _ _ scans => scans

theorem append (first : Writes a u) (second : Writes b w) (opens : Opens b) :
    Writes (a ++ b) (u ++ w) := by
  intro tail rest ends scans
  rw [List.append_assoc, List.append_assoc]
  exact first _ _ (opens tail ends) (second tail rest ends scans)

theorem name {word : String} (spelled : (Token.name word).Spelled word.toList) :
    Writes word.toList [.name word] :=
  fun _ _ ends scans => scans.name spelled ends

theorem literal {value : Literal} (spelled : value.token.Spelled value.text) :
    Writes value.text [value.token] :=
  fun _ _ ends scans => scans.literal spelled ends

/-- The text between two brackets. -/
theorem between (left right : Delimiter)
    (closes : right ∈ [Delimiter.closeParen, .closeBracket, .closeBrace]) (inner : Writes a u) :
    Writes (left.text ++ (a ++ right.text)) (between left u right) := by
  intro tail rest _ scans
  have ends : EndsOperand (right.text ++ tail) := by
    simp only [List.mem_cons, List.not_mem_nil, or_false] at closes
    rcases closes with rfl | rfl | rfl <;> exact endsOperand_cons (by decide) tail
  have inside := inner (right.text ++ tail) _ ends (scans.delimiter right)
  have whole := inside.delimiter left
  simpa [Token.between] using whole

/-- Two texts with a comma and a blank between them. -/
theorem separated (first : Writes a u) (second : Writes b w) :
    Writes (a ++ ',' :: ' ' :: b) (u ++ .delimiter .comma :: w) := by
  intro tail rest ends scans
  rw [List.append_assoc, List.append_assoc]
  have behind : Scans (' ' :: (b ++ tail)) (w ++ rest) := (second tail rest ends scans).gap rfl
  exact first _ _ (endsOperand_cons (by decide) _) (behind.delimiter .comma)

/-- A value behind its key. -/
theorem keyed {key : String} (spelled : (Token.name key).Spelled key.toList)
    (value : Writes a u) :
    Writes (key.toList ++ ':' :: ' ' :: a) (.name key :: .delimiter .colon :: u) := by
  intro tail rest ends scans
  rw [List.append_assoc]
  have behind : Scans (' ' :: (a ++ tail)) (u ++ rest) := (value tail rest ends scans).gap rfl
  exact Scans.name spelled (endsOperand_cons (by decide) _) (behind.delimiter .colon)

/-- Two texts with an operator and blanks between them. -/
theorem joined (op : BinaryOp) (first : Writes a u) (second : Writes b w) :
    Writes (a ++ ' ' :: op.symbol.text ++ ' ' :: b) (u ++ .operator op.symbol :: w) := by
  intro tail rest ends scans
  have blank : ∀ c ∈ (' ' :: (b ++ tail)).head?, extends? op.symbol c = false := by
    rintro _ ⟨⟩
    cases op <;> rfl
  have behind : Scans (' ' :: (b ++ tail)) (w ++ rest) := (second tail rest ends scans).gap rfl
  have operator : Scans (' ' :: (op.symbol.text ++ ' ' :: (b ++ tail))) _ :=
    (behind.operator blank).gap rfl
  have whole := first _ _ (endsOperand_cons (by decide) _) operator
  simpa using whole

/-- An access in front of what may stand behind a name. -/
theorem accessed (optional : Bool) {word : String}
    (spelled : (Token.name word).Spelled word.toList) (behind : Writes a u) (opens : Opens a) :
    Writes (Link.accessText optional ++ word.toList ++ a)
      (.operator (Link.access optional) :: .name word :: u) := by
  intro tail rest ends scans
  have named := Scans.name spelled (opens tail ends) (behind tail rest ends scans)
  have whole : Scans ((Link.access optional).text ++ (word.toList ++ (a ++ tail))) _ :=
    named.operator fun c _ => by cases optional <;> rfl
  rw [Link.text_access] at whole
  simpa using whole

end Writes

/-! ## Canonical texts -/

/-- What a primary expression starts with is no equals sign. -/
theorem Token.Spelled.head_ne {token : Token} {source : List Char}
    (spelled : token.Spelled source) (primary : token.startsPrimary = true) :
    ∃ c cs, source = c :: cs ∧ c ≠ '=' := by
  cases spelled with
  | @string quote contents source quoted body =>
      refine ⟨quote, source, rfl, ?_⟩
      rcases quoted with rfl | rfl <;> decide
  | @number whole fraction nonempty digits _ =>
      obtain ⟨d, whole, rfl⟩ := List.exists_cons_of_ne_nil nonempty
      have apart : d ≠ '=' := by
        rintro rfl
        cases digits
      cases fraction with
      | nil => exact ⟨d, whole, rfl, apart⟩
      | cons e fraction => exact ⟨d, _, rfl, apart⟩
  | delimiter symbol =>
      cases symbol with
      | openBrace | openParen | openBracket => exact ⟨_, [], rfl, by decide⟩
      | _ => cases primary
  | @word c cs starts _ =>
      refine ⟨c, cs, rfl, ?_⟩
      rintro rfl
      have other : startsWord '=' = false := by decide +kernel
      rw [other] at starts
      cases starts
  | _ => cases primary

namespace Expr

/-- Each of the tokens is spelled by its own text. -/
def Spelled (ts : List Token) : Prop := ∀ t ∈ ts, t.Spelled t.text

theorem spelled_nil : Spelled [] := List.forall_mem_nil _

theorem spelled_append {u w : List Token} : Spelled (u ++ w) ↔ Spelled u ∧ Spelled w :=
  List.forall_mem_append

theorem spelled_cons {t : Token} {u : List Token} :
    Spelled (t :: u) ↔ t.Spelled t.text ∧ Spelled u :=
  List.forall_mem_cons

theorem Spelled.between {left right : Delimiter} {u : List Token}
    (spelled : Spelled (between left u right)) : Spelled u :=
  (spelled_append.mp (spelled_cons.mp spelled).2).1

/-- The canonical text of an expression starts like a primary expression. -/
theorem canonical_head : ∀ {e : Expr}, Spelled e.tokens → ∃ c cs, e.canonical = c :: cs ∧ c ≠ '='
  | .literal value, spelled => by
      have head := (spelled_cons.mp spelled).1
      rw [Literal.text_token] at head
      exact head.head_ne (by rcases value with _ | _ | (_ | _) | _ | _ <;> rfl)
  | .name word, spelled => (spelled_cons.mp spelled).1.head_ne rfl
  | .array _, _ | .object _, _ | .unary _ _, _ | .binary _ _ _, _ =>
      ⟨_, _, rfl, by decide⟩
  | .call function arguments, spelled => by
      obtain ⟨c, cs, eq, apart⟩ := (spelled_cons.mp spelled).1.head_ne rfl
      exact ⟨c, _, congrArg (· ++ '(' :: (canonicalAll arguments ++ [')'])) eq, apart⟩
  | .chain base links, spelled => by
      obtain ⟨c, cs, eq, apart⟩ := canonical_head (spelled_append.mp spelled).1
      exact ⟨c, _, congrArg (· ++ canonicalLinks links) eq, apart⟩

theorem opens_links {links : List Link} (spelled : Spelled (tokensLinks links)) :
    Opens (canonicalLinks links) := by
  intro tail ends
  cases links with
  | nil => exact ends
  | cons link links =>
      have first := (spelled_append.mp spelled).1
      rw [canonicalLinks, List.append_assoc]
      cases link with
      | member word optional =>
          have name := (spelled_cons.mp (spelled_cons.mp first).2).1
          exact endsOperand_access name optional _
      | method word arguments optional =>
          have name := (spelled_cons.mp (spelled_cons.mp first).2).1
          rw [canonicalLink, List.append_assoc]
          exact endsOperand_access name optional _
      | index key => exact endsOperand_cons (by decide) _

mutual

/-- The canonical text of an expression is cut into its canonical tokens. -/
theorem writes : ∀ e : Expr, Spelled e.tokens → Writes e.canonical e.tokens
  | .literal value, spelled => by
      have head := (spelled_cons.mp spelled).1
      rw [Literal.text_token] at head
      exact .literal head
  | .name word, spelled => .name (spelled_cons.mp spelled).1
  | .array items, spelled =>
      (writesAll items spelled.between).between .openBracket .closeBracket (by decide)
  | .object entries, spelled =>
      (writesEntries entries spelled.between).between .openBrace .closeBrace (by decide)
  | .call function arguments, spelled => by
      obtain ⟨name, rest⟩ := spelled_cons.mp spelled
      have brackets := (writesAll arguments rest.between).between .openParen .closeParen (by decide)
      exact (Writes.name name).append brackets fun tail _ => endsOperand_cons (by decide) _
  | .chain base links, spelled => by
      obtain ⟨first, behind⟩ := spelled_append.mp spelled
      exact (writes base first).append (writesLinks links behind) (opens_links behind)
  | .unary op operand, spelled => by
      have inner := (spelled_cons.mp spelled.between).2
      obtain ⟨c, cs, eq, apart⟩ := canonical_head inner
      have applied : Writes (op.symbol.text ++ operand.canonical)
          (.operator op.symbol :: operand.tokens) := by
        intro tail rest ends scans
        rw [List.append_assoc]
        refine (writes operand inner tail rest ends scans).operator ?_
        rw [eq]
        rintro _ ⟨⟩
        cases op <;> simp [UnaryOp.symbol, extends?, apart]
      exact applied.between .openParen .closeParen (by decide)
  | .binary op left right, spelled => by
      obtain ⟨first, behind⟩ := spelled_append.mp spelled.between
      have second := (spelled_cons.mp behind).2
      have inner := (writes left first).joined op (writes right second)
      exact inner.between .openParen .closeParen (by decide)

theorem writesAll : ∀ es : List Expr, Spelled (tokensAll es) →
    Writes (canonicalAll es) (tokensAll es)
  | [], _ => .nil
  | [e], spelled => writes e spelled
  | e :: f :: es, spelled => by
      obtain ⟨first, behind⟩ := spelled_append.mp spelled
      exact (writes e first).separated (writesAll (f :: es) (spelled_cons.mp behind).2)

theorem writesEntries : ∀ entries : List (String × Expr), Spelled (tokensEntries entries) →
    Writes (canonicalEntries entries) (tokensEntries entries)
  | [], _ => .nil
  | [(key, e)], spelled => by
      obtain ⟨name, rest⟩ := spelled_cons.mp spelled
      exact (writes e (spelled_cons.mp rest).2).keyed name
  | (key, e) :: entry :: entries, spelled => by
      obtain ⟨first, behind⟩ := spelled_append.mp spelled
      obtain ⟨name, rest⟩ := spelled_cons.mp first
      exact ((writes e (spelled_cons.mp rest).2).keyed name).separated
        (writesEntries (entry :: entries) (spelled_cons.mp behind).2)

theorem writesLinks : ∀ links : List Link, Spelled (tokensLinks links) →
    Writes (canonicalLinks links) (tokensLinks links)
  | [], _ => .nil
  | link :: links, spelled => by
      obtain ⟨first, behind⟩ := spelled_append.mp spelled
      exact (writesLink link first).append (writesLinks links behind) (opens_links behind)

theorem writesLink : ∀ link : Link, Spelled (tokensLink link) →
    Writes (canonicalLink link) (tokensLink link)
  | .member word optional, spelled => by
      have name := (spelled_cons.mp (spelled_cons.mp spelled).2).1
      have access := Writes.nil.accessed optional name fun _ ends => ends
      rwa [List.append_nil] at access
  | .method word arguments optional, spelled => by
      obtain ⟨name, rest⟩ := spelled_cons.mp (spelled_cons.mp spelled).2
      have brackets := (writesAll arguments rest.between).between .openParen .closeParen (by decide)
      exact brackets.accessed optional name fun tail _ => endsOperand_cons (by decide) _
  | .index key, spelled =>
      (writes key spelled.between).between .openBracket .closeBracket (by decide)

end

end Expr

end Trigger
