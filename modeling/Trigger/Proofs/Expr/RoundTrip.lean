import Trigger.Proofs.Expr.Canonical
import Trigger.Proofs.Expr.Nodes
import Trigger.Proofs.Number.Reread

/-!
# Canonical texts parse again

The names of a parsed expression are tokens of its text, and so are its literals.  So the text of
each canonical token spells it, provided that its keys are names, that its strings are shown without
code points, and that its numbers are finite, so that they read back from what is written
(`Derives.spells`).  Then the canonical text is cut into the canonical tokens, which derive the flat
tree.

An expression need not be flat, since its text may have a chain in parentheses as the base of
another one, and the canonical text has no parentheses there.
-/

namespace Trigger

open Lexeme Token

/-! ## Written tokens -/

namespace Text

/-- A character that is shown without its code point. -/
def IsShown (c : Char) : Prop := (escapeName? c).isSome = true ∨ isPrintable c = true

instance (c : Char) : Decidable (IsShown c) := inferInstanceAs (Decidable (_ ∨ _))

theorem unescape?_of_escapeName? {c name : Char} (found : escapeName? c = some name) :
    unescape? name = some c := by
  have known : ['\x00', '\t', '\r', '\n', '"', '\\'].all
      (fun d => (escapeName? d).bind unescape? = some d) = true := by decide
  have named : c ∈ ['\x00', '\t', '\r', '\n', '"', '\\'] := by
    refine Decidable.byContradiction fun other => ?_
    simp only [List.mem_cons, List.not_mem_nil, or_false, not_or] at other
    simp [escapeName?, other] at found
  have back := of_decide_eq_true (List.all_eq_true.mp known c named)
  rwa [found] at back

theorem apart_of_escapeName? {c : Char} (none : escapeName? c = none) :
    c ≠ '"' ∧ c ≠ '\n' ∧ c ≠ '\\' := by
  refine ⟨?_, ?_, ?_⟩ <;> (rintro rfl; cases none)

/-- Quoted contents are read as what they show. -/
theorem stringBody?_quoted {cs : List Char} (shown : ∀ c ∈ cs, IsShown c) :
    stringBody? '"' (cs.flatMap quotedChar ++ ['"']) =
      some (cs, cs.flatMap quotedChar ++ ['"'], []) := by
  induction cs with
  | nil => exact stringBody?_quote '"' []
  | cons c cs ih =>
      obtain ⟨first, rest⟩ := List.forall_mem_cons.mp shown
      rw [List.flatMap_cons, List.append_assoc, quotedChar]
      cases escape : escapeName? c with
      | some name =>
          have read := @stringBody?_escape '"' name c (by decide) (unescape?_of_escapeName? escape)
          simp [read, ih rest]
      | none =>
          obtain ⟨quote, line, backslash⟩ := apart_of_escapeName? escape
          have printable : isPrintable c = true := by simpa [IsShown, escape] using first
          simp [printable, stringBody?_plain quote line backslash, ih rest]

end Text

namespace Lexeme

/-- A text that is a name as it stands. -/
def IsName (word : List Char) : Prop :=
  word.head?.any startsWord = true ∧ word.tail.all continuesWord = true ∧
    Keyword.ofText? word = none

instance (word : List Char) : Decidable (IsName word) := inferInstanceAs (Decidable (_ ∧ _ ∧ _))

end Lexeme

namespace Token

theorem spelled_of_isName {word : String} (isName : IsName word.toList) :
    (Token.name word).Spelled word.toList := by
  obtain ⟨starts, continues, free⟩ := isName
  have token : Token.name word = ofWord word.toList := by
    rw [ofWord, free, String.ofList_toList]
  rw [token]
  cases same : word.toList with
  | nil =>
      rw [same] at starts
      cases starts
  | cons c cs =>
      rw [same] at starts continues
      exact .word starts continues

theorem spelled_string {contents : String} (shown : ∀ c ∈ contents.toList, Text.IsShown c) :
    (Token.string contents).Spelled (Token.string contents).text := by
  have spelled := Spelled.string (.inl rfl) (Text.stringBody?_quoted shown)
  rwa [String.ofList_toList] at spelled

/-- Names, keywords and finite numbers that stand in a text are spelled by their own texts. -/
theorem Spelled.own {token : Token} {source : List Char} (spelled : token.Spelled source)
    (number : ∀ n, token = .number n → n.isFinite = true)
    (string : ∀ contents, token = .string contents →
      ∀ c ∈ contents.toList, Text.IsShown c)
    (significant : token.isSignificant = true) : token.Spelled token.text := by
  cases spelled with
  | string => exact spelled_string (string _ rfl)
  | @number whole fraction nonempty digits digits' =>
      have finite := number _ rfl
      have rereads := Number.ofText?_write (Number.finite_of_isFinite finite)
      obtain ⟨whole', fraction', ⟨some, all, all'⟩, text, same⟩ :=
        Number.exists_digits_write (Number.unsigned_ofFixed whole fraction 0) finite rereads
      have own := Spelled.number some all all'
      rw [same] at own
      rw [Token.text, text]
      exact own
  | operator symbol => exact .operator symbol
  | delimiter symbol => exact .delimiter symbol
  | word starts continues =>
      rw [text_ofWord]
      exact .word starts continues
  | _ => cases significant

end Token

/-! ## Tokens of parsed expressions -/

namespace Expr

/-- The node's own part of the canonical text can be read. -/
def Readable : Expr → Prop
  | literal (.number n) => n.isFinite = true
  | literal (.string contents) => ∀ c ∈ contents.toList, Text.IsShown c
  | object entries => ∀ entry ∈ entries, IsName entry.1.toList
  | _ => True

theorem spelled_between {left right : Delimiter} {u : List Token} (spelled : Spelled u) :
    Spelled (between left u right) :=
  spelled_cons.mpr ⟨.delimiter left, spelled_append.mpr
    ⟨spelled, spelled_cons.mpr ⟨.delimiter right, spelled_nil⟩⟩⟩

theorem spelled_tokensAll {es : List Expr} (spelled : ∀ e ∈ es, Spelled e.tokens) :
    Spelled (tokensAll es) := by
  induction es with
  | nil => exact spelled_nil
  | cons e es ih =>
      obtain ⟨first, rest⟩ := List.forall_mem_cons.mp spelled
      cases es with
      | nil => exact first
      | cons f es => exact spelled_append.mpr ⟨first, spelled_cons.mpr ⟨.delimiter .comma, ih rest⟩⟩

theorem spelled_tokensEntries {entries : List (String × Expr)}
    (keys : ∀ entry ∈ entries, IsName entry.1.toList)
    (spelled : ∀ entry ∈ entries, Spelled entry.2.tokens) : Spelled (tokensEntries entries) := by
  induction entries with
  | nil => exact spelled_nil
  | cons entry entries ih =>
      obtain ⟨key, keys⟩ := List.forall_mem_cons.mp keys
      obtain ⟨value, rest⟩ := List.forall_mem_cons.mp spelled
      have first : Spelled (.name entry.1 :: .delimiter .colon :: entry.2.tokens) :=
        spelled_cons.mpr ⟨spelled_of_isName key, spelled_cons.mpr ⟨.delimiter .colon, value⟩⟩
      cases entries with
      | nil => exact first
      | cons other entries =>
          exact spelled_append.mpr ⟨first, spelled_cons.mpr ⟨.delimiter .comma, ih keys rest⟩⟩

end Expr

open Trigger.Expr

/-- If all nodes are readable, the canonical tokens are spelled by their own texts. -/
def Phrase.Spells : (p : Phrase) → p.Value → Prop
  | .expression, e | .binary _, e | .unary, e | .postfixed, e | .primary, e =>
    (∀ node ∈ e.nodes, node.Readable) → Spelled e.tokens
  | .links, ls => (∀ node ∈ nodesLinks ls, node.Readable) → Spelled (tokensLinks ls)
  | .link, l => (∀ node ∈ nodesLink l, node.Readable) → Spelled (tokensLink l)
  | .entry, v => (∀ node ∈ v.2.nodes, node.Readable) → Spelled v.2.tokens
  | .list item, vs | .items item, vs => ∀ v ∈ vs, item.Spells v

/-- The token stands in a text. -/
def Token.Stands (t : Token) : Prop := t.isSignificant = true ∧ ∃ source, t.Spelled source

theorem Token.Stands.name {word : String} (stands : (Token.name word).Stands) :
    (Token.name word).Spelled word.toList := by
  obtain ⟨significant, source, spelled⟩ := stands
  exact spelled.own nofun nofun significant

theorem Phrase.Spells.arguments {es : List Expr} (spells : (Phrase.list .expression).Spells es)
    (readable : ∀ node ∈ nodesAll es, node.Readable) : Spelled (tokensAll es) := by
  rw [nodesAll_eq] at readable
  refine spelled_tokensAll fun e mem => spells e mem fun node inside => readable node ?_
  exact List.mem_flatMap.mpr ⟨e, mem, inside⟩

namespace Derives

theorem spelled_literal {t : Token} {value : Literal} (writes : t.literal? = some value)
    (stands : t.Stands) (readable : (Expr.literal value).Readable) :
    value.token.Spelled value.token.text := by
  obtain ⟨significant, source, spelled⟩ := stands
  cases t with
  | number n =>
      cases writes
      exact spelled.own (by rintro _ ⟨⟩; exact readable) nofun rfl
  | string contents =>
      cases writes
      exact spelled.own nofun (by rintro _ ⟨⟩; exact readable) rfl
  | keyword word =>
      cases writes
      have own := spelled.own nofun nofun rfl
      cases word <;> exact own
  | _ => cases writes

/-- A phrase of tokens that stand in a text spells its canonical tokens. -/
theorem spells {p : Phrase} {u : List Token} {v : p.Value} (word : Derives p u v)
    (stand : ∀ t ∈ u, t.Stands) : p.Spells v := by
  induction word with
  | expression _ ih | operand _ ih | tighter _ ih | bare _ ih => exact ih stand
  | @join _ _ op u w e f _ _ _ ihl ihr =>
      obtain ⟨left, right⟩ := List.forall_mem_append.mp stand
      intro readable
      obtain ⟨first, second⟩ := List.forall_mem_append.mp (List.forall_mem_cons.mp readable).2
      exact spelled_between (spelled_append.mpr ⟨ihl left first,
        spelled_cons.mpr ⟨.operator op.symbol, ihr (List.forall_mem_cons.mp right).2 second⟩⟩)
  | @apply op u e _ ih =>
      intro readable
      exact spelled_between (spelled_cons.mpr ⟨.operator op.symbol,
        ih (List.forall_mem_cons.mp stand).2 (List.forall_mem_cons.mp readable).2⟩)
  | @postfixed u w base links _ _ ihb ihl =>
      obtain ⟨left, right⟩ := List.forall_mem_append.mp stand
      intro readable
      have inside : ∀ node ∈ base.nodes ++ nodesLinks links, node.Readable :=
        fun node mem => readable node (nodes_linked_subset base links mem)
      obtain ⟨first, second⟩ := List.forall_mem_append.mp inside
      rw [tokens_linked]
      exact spelled_append.mpr ⟨ihb left first, ihl right second⟩
  | noLinks => exact fun _ => spelled_nil
  | moreLinks _ _ ihh iht =>
      obtain ⟨left, right⟩ := List.forall_mem_append.mp stand
      intro readable
      obtain ⟨first, second⟩ := List.forall_mem_append.mp readable
      exact spelled_append.mpr ⟨ihh left first, iht right second⟩
  | @member symbol optional word _ =>
      intro _
      have name := (stand (.name word) (by simp)).name
      exact spelled_cons.mpr ⟨.operator _, spelled_cons.mpr ⟨name, spelled_nil⟩⟩
  | @method symbol optional word u arguments _ _ ih =>
      intro readable
      have name := (stand (.name word) (by simp)).name
      have list := (ih fun t mem => stand t (by simp [between, mem])).arguments readable
      exact spelled_cons.mpr ⟨.operator _, spelled_cons.mpr ⟨name, spelled_between list⟩⟩
  | index _ ih =>
      exact fun readable => spelled_between
        (ih (fun t mem => stand t (by simp [between, mem])) readable)
  | parenthesized _ ih => exact ih fun t mem => stand t (by simp [between, mem])
  | array _ ih =>
      intro readable
      have list := ih fun t mem => stand t (by simp [between, mem])
      exact spelled_between (list.arguments (List.forall_mem_cons.mp readable).2)
  | @object u entries _ ih =>
      intro readable
      obtain ⟨keys, inside⟩ := List.forall_mem_cons.mp readable
      rw [nodesEntries_eq] at inside
      have list := ih fun t mem => stand t (by simp [between, mem])
      refine spelled_between (spelled_tokensEntries keys fun entry mem => list entry mem ?_)
      exact fun node within => inside node (List.mem_flatMap.mpr ⟨entry, mem, within⟩)
  | @literal t value writes =>
      intro readable
      have own := spelled_literal writes (stand t (by simp)) (readable _ (mem_nodes_self _))
      exact spelled_cons.mpr ⟨own, spelled_nil⟩
  | @call word u arguments _ ih =>
      intro readable
      have name := (stand (.name word) (by simp)).name
      have list := ih fun t mem => stand t (by simp [between, mem])
      exact spelled_cons.mpr
        ⟨name, spelled_between (list.arguments (List.forall_mem_cons.mp readable).2)⟩
  | @name word => exact fun _ => spelled_cons.mpr ⟨(stand (.name word) (by simp)).name, spelled_nil⟩
  | entry _ _ ih => exact fun readable => ih (fun t mem => stand t (by simp [mem])) readable
  | noItems => exact List.forall_mem_nil _
  | someItems _ ih => exact ih stand
  | trailing _ ih => exact ih fun t mem => stand t (by simp [mem])
  | last _ ih => exact List.forall_mem_singleton.mpr (ih stand)
  | more _ _ ihh iht =>
      obtain ⟨left, right⟩ := List.forall_mem_append.mp stand
      exact List.forall_mem_cons.mpr ⟨ihh left, iht (List.forall_mem_cons.mp right).2⟩

end Derives

/-! ## The round trip -/

/-- The significant tokens of a text stand in it. -/
theorem Token.stands_of_ofText {cs : List Char} {all : List Span} (scanned : ofText cs = .ok all) :
    ∀ t ∈ significantTokens all, t.Stands := by
  intro t mem
  obtain ⟨span, inside, rfl⟩ := List.mem_map.mp mem
  obtain ⟨among, significant⟩ := List.mem_filter.mp inside
  exact ⟨significant, span.source, spelled_of_scanWithin scanned span among⟩

namespace Expr

variable {cs : List Char} {e : Expr}

theorem spelled_tokens (parsed : ofText cs = .ok e) (readable : ∀ node ∈ e.nodes, node.Readable) :
    Spelled e.tokens := by
  obtain ⟨all, scanned, -, word⟩ := (ofText_ok_iff cs e).mp parsed
  exact word.spells (stands_of_ofText scanned) readable

theorem scans_canonical (spelled : Spelled e.tokens) : Scans e.canonical e.tokens := by
  have scans := writes e spelled [] [] endsOperand_nil .nil
  rwa [List.append_nil, List.append_nil] at scans

/-- The canonical text of an expression that was parsed is parsed as the flat expression, if the
numbers are finite, the keys are names, the strings are shown without code points, and the text is
within the limits. -/
theorem canonical_parses (parsed : ofText cs = .ok e)
    (finite : ∀ n, .literal (.number n) ∈ e.nodes → n.isFinite = true)
    (keys : ∀ entries, .object entries ∈ e.nodes → ∀ entry ∈ entries, IsName entry.1.toList)
    (strings : ∀ contents, .literal (.string contents) ∈ e.nodes →
      ∀ c ∈ contents.toList, Text.IsShown c)
    (within : ∀ all, Token.ofText e.canonical = .ok all →
      Limits.excess? (significantTokens all) = none) :
    ofText e.canonical = .ok e.flat := by
  have readable : ∀ node ∈ e.nodes, node.Readable := by
    intro node mem
    match node with
    | .literal (.number n) => exact finite n mem
    | .literal (.string contents) => exact strings contents mem
    | .object entries => exact keys entries mem
    | .literal (.boolean _) | .literal .null | .literal .absent | .name _ | .array _ | .call _ _
    | .chain _ _ | .unary _ _ | .binary _ _ _ => trivial
  have scans := scans_canonical (spelled_tokens parsed readable)
  obtain ⟨all, scanned, same⟩ := scans_iff.mp scans
  exact ofText_iff_scans.mpr ⟨e.tokens, scans, same ▸ within all scanned, derives_tokens e⟩

/-- The base of a chain that is a chain itself. -/
def innerChain : Expr := .chain (.literal (.string "\t")) [.member "b" false]

/-- Links behind the inner chain, one of them with a number under a key. -/
def outerLinks : List Link :=
  [.member "c" true, .index (.object [("k", .literal (.number (Number.ofFixed ['1'] ['5'] 0)))])]

/-- A chain on a chain. -/
def chained : Expr := chain innerChain outerLinks

theorem ofText_chained :
    ofText "('\\t'.b) ?. c[\x7bk: 1.50\x7d]".toList = .ok chained := by
  have inner : Derives .primary (between .openParen innerChain.tokens .closeParen) innerChain :=
    .parenthesized innerChain.derives_tokens
  have word := (Derives.bare (.postfixed inner (formsLinks outerLinks))).expression_of_unary
  exact ofText_iff_scans.mpr ⟨_, by decide +kernel, by decide +kernel, word⟩

theorem canonical_parses_chained :
    let text := "\"\\t\".b?.c[\x7bk: 1.5\x7d]".toList
    chained.canonical = text ∧
      ofText text = .ok (chain (literal (.string "\t")) (.member "b" false :: outerLinks)) := by
  intro text
  have written : chained.canonical = text := by decide +kernel
  have bounded : ((Token.ofText text).toOption.map fun all =>
      Limits.excess? (significantTokens all)) = some none := by
    decide +kernel
  have nodes : chained.nodes = [chained, innerChain, literal (.string "\t"),
      object [("k", literal (.number (Number.ofFixed ['1'] ['5'] 0)))],
      literal (.number (Number.ofFixed ['1'] ['5'] 0))] := rfl
  have number {n} (mem : literal (.number n) ∈ chained.nodes) :
      n = Number.ofFixed ['1'] ['5'] 0 := by
    rw [nodes] at mem
    simpa [chained, innerChain] using mem
  refine ⟨written, ?_⟩
  rw [← written]
  refine canonical_parses ofText_chained ?_ ?_ ?_ ?_
  · intro n mem
    rw [number mem]
    decide +kernel
  · intro entries mem entry inside
    rw [nodes] at mem
    obtain rfl : entries = [("k", literal (.number (Number.ofFixed ['1'] ['5'] 0)))] := by
      simpa [chained, innerChain] using mem
    rw [List.mem_singleton.mp inside]
    decide +kernel
  · intro contents mem
    rw [nodes] at mem
    obtain rfl : contents = "\t" := by simpa [chained, innerChain] using mem
    intro c within
    obtain rfl : c = '\t' := List.mem_singleton.mp within
    decide
  · intro all scanned
    rw [← written, scanned] at bounded
    exact Option.some.inj bounded

end Expr

end Trigger
