import Trigger.Proofs.Shape.Bare
import Trigger.Proofs.Shape.Catalog

/-!
# What is recognized

A text is recognized exactly if it is scanned without a comment, passes the limits and has its
tokens in the catalog.

A recognized text is made of blanks and of the characters of the catalog, so there is no comment in
it.  For the other direction the characters have to lead to the same splits as the tokens.  What
carries the induction over the grammar is `Accepted`: a text of a grade is recognized, its brackets
are closed, and outside its brackets it has none of the operators that the grade leaves apart.  So
the last operator among the tokens is the one at which the text is split.
-/

namespace Trigger

open Text (isBlank splitTopLevel? stripParens?)
open Text.Nesting (start)

/-! ## The characters of a recognized text -/

/-- The characters that a piece may match. -/
def Piece.chars : Piece → List Char
  | .text cs => cs
  | .access => ['?', '.']
  | .ordering ops => ops.flatMap fun op => op.symbol.text
  | .number => '.' :: Piece.heads .number

theorem Text.mem_trimStart {d : Char} {cs : List Char} (solid : isBlank d = false) (mem : d ∈ cs) :
    d ∈ trimStart cs := by
  obtain ⟨blank, eq⟩ := all_takeWhile_append (p := isBlank) cs
  rw [eq] at mem
  rcases List.mem_append.mp mem with front | behind
  · rw [List.all_eq_true.mp blank d front] at solid
    cases solid
  · exact behind

theorem Text.Fits.mem_chars {p : Piece} {piece : List Char} (fits : Fits p piece) :
    ∀ d ∈ piece, d ∈ p.chars := by
  intro d mem
  cases fits with
  | text expected => exact mem
  | @access symbol _ found =>
      cases symbol with
      | dot => exact List.mem_cons_of_mem _ mem
      | optionalDot => exact mem
      | _ => cases found
  | ordering known => exact List.mem_flatMap.mpr ⟨_, known, mem⟩
  | @number whole fraction _ digits digits' =>
      have digit {e : Char} (isDigit : e.isDigit = true) : e ∈ Piece.heads .number :=
        List.mem_map.mpr ⟨e.toNat, mem_range_of_isDigit isDigit, Char.ofNat_toNat e⟩
      have digits := List.all_eq_true.mp digits
      have digits' := List.all_eq_true.mp digits'
      cases fraction with
      | nil => exact List.mem_cons_of_mem _ (digit (digits d mem))
      | cons e fraction =>
          rcases List.mem_append.mp mem with front | behind
          · exact List.mem_cons_of_mem _ (digit (digits d front))
          · rcases List.mem_cons.mp behind with rfl | behind
            · exact List.mem_cons_self
            · exact List.mem_cons_of_mem _ (digit (digits' d behind))

namespace Pattern

/-- The characters of a text that a pattern matches, except for the blanks. -/
theorem mem_chars_of_captures? {ps : Pattern} {cs : List Char} {c : Captures} {d : Char}
    (found : ps.captures? cs = some c) (solid : isBlank d = false) (mem : d ∈ cs) :
    d ∈ ps.flatMap Piece.chars := by
  have behind := Text.mem_trimStart solid mem
  induction ps generalizing cs c with
  | nil =>
      have nothing := List.isEmpty_iff.mp (Option.ite_none_right_eq_some.mp found).1
      rw [nothing] at behind
      cases behind
  | cons p ps ih =>
      obtain ⟨piece, rest, c', first, fits, found⟩ := Text.captures?_cons_inv found
      rw [first] at behind
      rw [List.flatMap_cons, List.mem_append]
      rcases List.mem_append.mp behind with here | later
      · exact .inl (fits.mem_chars d here)
      · exact .inr (ih found later (Text.mem_trimStart solid later))

end Pattern

/-! ### There is no comment -/

theorem Shape.slash_not_mem_of_leaf? {cs : List Char} {form : Form} {shape : Shape}
    (found : leaf? cs = some (form, shape)) : '/' ∉ cs := by
  have plain : ∀ ps ∈ Pattern.distanceRange :: Pattern.leaves, '/' ∉ ps.flatMap Piece.chars := by
    decide +kernel
  obtain ⟨ps, mem, c, matched⟩ := captures?_of_leaf? found
  exact fun slash => plain ps mem (Pattern.mem_chars_of_captures? matched (by decide) slash)

/-- A recognized text has no slash. -/
theorem Shape.slash_not_mem {depth : Nat} {cs : List Char} {form : Form} {shape : Shape}
    (found : ofTextWithin depth cs = some (form, shape)) : '/' ∉ cs := by
  refine ofTextWithin_induction (P := fun cs _ => '/' ∉ cs) slash_not_mem_of_leaf? ?_ ?_ ?_ found
  · intro cs inner shape stripped plain mem
    obtain ⟨blanks, eq, blank⟩ := Text.stripParens?_eq_some stripped
    have behind : '/' ∉ blanks := by
      intro mem
      have somewhere := Text.mem_trimStart (by decide) mem
      rw [blank] at somewhere
      cases somewhere
    have within := Text.mem_trimStart (by decide) mem
    rw [eq] at within
    simp [plain, behind] at within
  · intro cs left right l r split plain plain'
    obtain ⟨-, ⟨rfl, -⟩, -⟩ := Text.splitTopLevel?_eq_some (by decide) (by decide) split
    simp [plain, plain', Operator.text]
  · intro cs left right l r _ split plain plain'
    obtain ⟨-, ⟨rfl, -⟩, -⟩ := Text.splitTopLevel?_eq_some (by decide) (by decide) split
    simp [plain, plain', Operator.text]

theorem Token.Spelled.slash_mem {token : Token} {source : List Char}
    (spelled : token.Spelled source) (comment : token.isComment = true) : '/' ∈ source := by
  cases spelled with
  | blockComment _ | lineComment _ => simp
  | word _ _ =>
      unfold Lexeme.ofWord at comment
      split at comment <;> cases comment
  | _ => cases comment

/-- A text without a slash is scanned without a comment. -/
theorem not_isComment_of_scanWithin {fuel : Nat} {p : Position} {cs : List Char} {spans : List Span}
    (scanned : (Token.scanWithin fuel p cs).1 = .ok spans) (plain : '/' ∉ cs) :
    ∀ span ∈ spans, span.token.isComment = false := by
  induction spans generalizing fuel p cs with
  | nil => nofun
  | cons span spans ih =>
      obtain ⟨-, eq⟩ | ⟨more, token, source, rest, later, found, eq, behind⟩ :=
        scanWithin_ok_inv scanned
      · cases eq
      · cases eq
        obtain ⟨spelled, rfl⟩ := spelled_of_first? found
        rw [List.mem_append, not_or] at plain
        refine List.forall_mem_cons.mpr ⟨?_, ih behind plain.2⟩
        exact Bool.eq_false_iff.mpr fun comment => plain.1 (spelled.slash_mem comment)

/-! ## Leaves -/

namespace Pattern

theorem mem_orderings_of_symbol {symbol : Operator} (mem : symbol ∈ Operator.orderings) :
    ∃ op ∈ orderings, op.symbol = symbol := by
  simp only [Operator.orderings, List.mem_cons, List.not_mem_nil, or_false] at mem
  rcases mem with rfl | rfl | rfl | rfl
  · exact ⟨.less, by decide, rfl⟩
  · exact ⟨.lessEqual, by decide, rfl⟩
  · exact ⟨.greater, by decide, rfl⟩
  · exact ⟨.greaterEqual, by decide, rfl⟩

/-- An ordering and a number at the end of a leaf. -/
theorem reads_bound {op : BinaryOp} (mem : op ∈ orderings) (limit : Float) :
    Reads [.ordering orderings, .number] [.operator op.symbol, .number limit] ⟨[op], [limit]⟩ :=
  ⟨op, _, _, mem, rfl, rfl, limit, _, _, rfl, rfl, rfl, rfl⟩

/-- A leaf is read by a pattern, which captures what the recognition looks for. -/
theorem exists_reads_of_leaf {u : List Token} (leaf : Leaf u) :
    ∃ ps ∈ leaves, ∃ c, Reads ps u c ∧
      ∀ cs, ps.captures? cs = some c → (Shape.leaf? cs).isSome = true := by
  cases leaf with
  | true =>
      have reads : Reads (truth .true) [.keyword .true] .empty := reads_truth.mpr ⟨rfl, rfl⟩
      refine ⟨_, by simp [leaves], _, reads, fun cs found => ?_⟩
      simp [Shape.leaf?, Shape.truth?, found]
  | false =>
      have reads : Reads (truth .false) [.keyword .false] .empty := reads_truth.mpr ⟨rfl, rfl⟩
      refine ⟨_, by simp [leaves], _, reads, fun cs found => ?_⟩
      simp only [Shape.leaf?, Shape.truth?, found]
      split <;> simp
  | @health _ limit ordering =>
      obtain ⟨op, mem, rfl⟩ := mem_orderings_of_symbol ordering
      refine ⟨healthThreshold, by simp [leaves], _,
        reads_health.mpr ⟨_, rfl, reads_bound mem limit⟩, fun cs found => ?_⟩
      simp [Shape.leaf?, Shape.health?, found]
  | @healthFraction _ fraction ordering =>
      obtain ⟨op, mem, rfl⟩ := mem_orderings_of_symbol ordering
      have number : Reads [.number] [.number fraction] ⟨[], [fraction]⟩ :=
        ⟨fraction, _, _, rfl, rfl, rfl, rfl⟩
      have full : Reads (fullHealth ++ [word "*", .number])
          (Token.ofSubject "maxHp" ++ [.operator .times, .number fraction]) ⟨[], [fraction]⟩ :=
        reads_fullHealth.mpr ⟨_, rfl, reads_times.mpr ⟨_, rfl, number⟩⟩
      refine ⟨Pattern.healthFraction, by simp [leaves], ⟨[op], [fraction]⟩,
        reads_health.mpr ⟨_, rfl, op, _, _, mem, rfl, rfl, full⟩, fun cs found => ?_⟩
      simp [Shape.leaf?, Shape.healthFraction?, found]
  | @distance access _ limit accesses ordering =>
      obtain ⟨op, mem, rfl⟩ := mem_orderings_of_symbol ordering
      obtain ⟨optional, known⟩ : ∃ optional, access.access? = some optional := by
        rcases accesses with rfl | rfl
        · exact ⟨false, rfl⟩
        · exact ⟨true, rfl⟩
      have reads := reads_enemyDistance.mpr ⟨access, optional, _, known, rfl, reads_bound mem limit⟩
      refine ⟨distanceThreshold, by simp [leaves], _, reads, fun cs found => ?_⟩
      simp [Shape.leaf?, Shape.distance?, found]

end Pattern

/-! ## Recognition, form by form -/

namespace Shape

/-- The text is recognized, where its length is taken as the bound of the depth. -/
def Recognized (cs : List Char) : Prop :=
  ∀ depth, cs.length < depth → (ofTextWithin depth cs).isSome = true

theorem recognized_of_forms {cs : List Char}
    (forms : ∀ depth, cs.length ≤ depth → (ofTextWithin (depth + 1) cs).isSome = true) :
    Recognized cs := by
  intro depth long
  cases depth with
  | zero => cases long
  | succ depth => exact forms depth (Nat.le_of_lt_succ long)

theorem recognized_of_leaf? {cs : List Char} (known : (leaf? cs).isSome = true) : Recognized cs :=
  recognized_of_forms fun depth _ => by simp [ofTextWithin, known]

namespace Recognized

variable {cs left right : List Char}

theorem parenthesized {inner : List Char} (stripped : stripParens? cs = some inner)
    (recognized : Recognized inner) : Recognized cs := by
  refine recognized_of_forms fun depth long => ?_
  obtain ⟨blanks, eq, -⟩ := Text.stripParens?_eq_some stripped
  have shorter : (Text.trimStart cs).length ≤ cs.length := (List.dropWhile_sublist _).length_le
  simp only [eq, List.length_cons, List.length_append] at shorter
  obtain ⟨⟨form, shape⟩, found⟩ := Option.isSome_iff_exists.mp (recognized depth (by omega))
  simp [ofTextWithin, parenthesized?, stripped, found]

theorem disjunction (split : splitTopLevel? Operator.or.text cs = some (left, right))
    (first : Recognized left) (last : Recognized right) : Recognized cs := by
  refine recognized_of_forms fun depth long => ?_
  obtain ⟨-, ⟨eq, -⟩, -⟩ := Text.splitTopLevel?_eq_some (by decide) (by decide) split
  simp only [eq, List.length_append, Operator.text, List.length_cons] at long
  obtain ⟨⟨form, shape⟩, found⟩ := Option.isSome_iff_exists.mp (first depth (by omega))
  obtain ⟨⟨form', shape'⟩, found'⟩ := Option.isSome_iff_exists.mp (last depth (by omega))
  simp [ofTextWithin, disjunction?, split, found, found']

theorem conjunction (whole : splitTopLevel? Operator.or.text cs = none)
    (split : splitTopLevel? Operator.and.text cs = some (left, right))
    (first : Recognized left) (last : Recognized right) : Recognized cs := by
  refine recognized_of_forms fun depth long => ?_
  obtain ⟨-, ⟨eq, -⟩, -⟩ := Text.splitTopLevel?_eq_some (by decide) (by decide) split
  simp only [eq, List.length_append, Operator.text, List.length_cons] at long
  obtain ⟨⟨form, shape⟩, found⟩ := Option.isSome_iff_exists.mp (first depth (by omega))
  obtain ⟨⟨form', shape'⟩, found'⟩ := Option.isSome_iff_exists.mp (last depth (by omega))
  simp [ofTextWithin, conjunction?, whole, split, found, found']

end Recognized

end Shape

/-! ## The texts of the catalog -/

/-- A text of the tokens of a grade: it is recognized, and it is passed as one piece on the top
level of a longer text, where the operators that the grade leaves apart are not found in it. -/
structure Accepted (grade : Grade) (cs : List Char) : Prop where
  balanced : start.after? cs = some start
  bare : ∀ c ∈ grade.apart, Text.Nesting.Bare c start cs
  recognized : Shape.Recognized cs

theorem of_mem_apart {c : Char} {grade : Grade} (mem : c ∈ grade.apart) :
    isBlank c = false ∧ Text.Nesting.isNeutral c = true := by
  have all : Grade.atom.apart.all (fun c => !isBlank c && Text.Nesting.isNeutral c) = true := by
    decide
  have loosest : c ∈ Grade.atom.apart := by
    cases grade with
    | disjunction => cases mem
    | conjunction => exact List.mem_append_left ['&'] mem
    | atom => exact mem
  simpa using List.all_eq_true.mp all c loosest

namespace Accepted

variable {grade : Grade} {cs left right : List Char}

/-- A text is of the grades that leave fewer operators apart. -/
theorem mono {grade' : Grade} (accepted : Accepted grade cs)
    (fewer : ∀ c ∈ grade'.apart, c ∈ grade.apart) : Accepted grade' cs where
  balanced := accepted.balanced
  bare c mem := accepted.bare c (fewer c mem)
  recognized := accepted.recognized

theorem leaf {u : List Token} (leaf : Leaf u) (spaced : Spaced u cs) : Accepted .atom cs := by
  have separate : ∀ ps ∈ Pattern.leaves, ps.separate = true ∧ ps.isOrdered = true := by
    decide +kernel
  have passes : ∀ ps ∈ Pattern.leaves, Text.afterPattern? start ps = some start := by
    decide +kernel
  have plain : ∀ ps ∈ Pattern.leaves,
      Grade.atom.apart.all (!(ps.flatMap Piece.chars).contains ·) = true := by
    decide +kernel
  obtain ⟨ps, mem, c, reads, known⟩ := Pattern.exists_reads_of_leaf leaf
  have matched : ps.captures? cs = some c :=
    Pattern.captures?_of_reads (separate ps mem).1 (separate ps mem).2 reads spaced
  refine ⟨?balanced, ?bare, Shape.recognized_of_leaf? (known cs matched)⟩
  case balanced =>
    rw [← List.append_nil ps] at matched
    obtain ⟨front, rest, _, rfl, after, last⟩ :=
      Text.after?_of_captures? ps [] rfl (passes ps mem) matched
    have nothing := List.isEmpty_iff.mp (Option.ite_none_right_eq_some.mp last).1
    obtain ⟨blanks, eq, neutral⟩ := Text.exists_blanks rest
    rw [nothing, List.append_nil] at eq
    rw [Text.Nesting.after?_append, after, Option.bind_some, eq,
      Text.Nesting.after?_of_neutral rfl neutral]
  case bare =>
    intro d apart
    refine Text.Nesting.bare_of_not_mem start fun here => ?_
    have chars := Pattern.mem_chars_of_captures? matched (of_mem_apart apart).1 here
    have absent := List.all_eq_true.mp (plain ps mem) d apart
    rw [List.contains_iff_mem.mpr chars] at absent
    cases absent

theorem parenthesized {before inner behind : List Char} (blank : before.all isBlank = true)
    (blank' : behind.all isBlank = true) (accepted : Accepted .disjunction inner) :
    Accepted .atom (before ++ '(' :: (inner ++ ')' :: behind)) where
  balanced := Text.after?_parenthesized blank blank' accepted.balanced
  bare _ mem :=
    Text.bare_parenthesized blank blank' accepted.balanced (of_mem_apart mem).1 (of_mem_apart mem).2
  recognized :=
    accepted.recognized.parenthesized
      (Text.stripParens?_of_balanced blank blank' accepted.balanced)

/-- Behind its last `||` a text of the catalog has none. -/
theorem disjunction (accepted : Accepted .disjunction left)
    (accepted' : Accepted .conjunction right) :
    Accepted .disjunction (left ++ (Operator.or.text ++ right)) where
  balanced := Text.after?_around (by decide) accepted.balanced accepted'.balanced
  bare := nofun
  recognized := by
    have bare := accepted'.bare '|' (by decide)
    have split := Text.splitTopLevel?_of_bare (by decide) accepted.balanced accepted'.balanced bare
    exact .disjunction split accepted.recognized accepted'.recognized

/-- Around its last `&&` a text of the catalog has no `||`, and behind it no `&&`. -/
theorem conjunction (accepted : Accepted .conjunction left) (accepted' : Accepted .atom right) :
    Accepted .conjunction (left ++ (Operator.and.text ++ right)) := by
  have bare : Text.Nesting.Bare '|' start (left ++ (Operator.and.text ++ right)) := by
    refine (accepted.bare '|' (by decide)).append accepted.balanced ?_
    refine (Text.Nesting.bare_of_not_mem start (by decide)).append rfl ?_
    exact accepted'.bare '|' (by decide)
  refine ⟨?balanced, ?bare, ?recognized⟩
  case balanced => exact Text.after?_around (by decide) accepted.balanced accepted'.balanced
  case bare => simpa [Grade.apart] using bare
  case recognized =>
    have whole := Text.splitTopLevel?_eq_none (by decide) bare
    have bare' := accepted'.bare '&' (by decide)
    have split := Text.splitTopLevel?_of_bare (by decide) accepted.balanced accepted'.balanced bare'
    exact .conjunction whole split accepted.recognized accepted'.recognized

end Accepted

/-- The texts of the tokens of a grade are recognized, whatever blanks stand between the tokens. -/
theorem Catalog.accepted {grade : Grade} {u : List Token} {cs : List Char} (word : Catalog grade u)
    (spaced : Spaced u cs) : Accepted grade cs := by
  induction word generalizing cs with
  | or _ _ ih ih' =>
      obtain ⟨left, right, rfl, front, back⟩ := spaced.symbol_inv rfl
      exact (ih front).disjunction (ih' back)
  | ofConjunction _ ih => exact (ih spaced).mono nofun
  | and _ _ ih ih' =>
      obtain ⟨left, right, rfl, front, back⟩ := spaced.symbol_inv rfl
      exact (ih front).conjunction (ih' back)
  | ofAtom _ ih => exact (ih spaced).mono (by simp [Grade.apart])
  | leaf leaf => exact .leaf leaf spaced
  | parenthesized _ ih =>
      obtain ⟨before, inner, behind, rfl, blank, blank', spaced⟩ := spaced.between_inv
      exact .parenthesized blank blank' (ih spaced)

/-! ## Specialized texts -/

namespace Shape

/-- The tokens of a specialized text are in the catalog, and there is no comment in it. -/
theorem catalog_of_specialize? {cs : List Char} (found : (specialize? cs).isSome = true) :
    ∃ all, Token.ofText cs = .ok all ∧ (∀ span ∈ all, span.token.isComment = false) ∧
      Limits.excess? (Expr.significantTokens all) = none ∧
      Catalog .disjunction (Expr.significantTokens all) := by
  obtain ⟨⟨form, shape⟩, found⟩ := Option.isSome_iff_exists.mp found
  obtain ⟨all, scanned, -, within, known⟩ := specialize?_eq_some_iff.mp found
  have graded := (covers_of_ofTextWithin known).whole (scans_of_ofText scanned)
  have clean := not_isComment_of_scanWithin scanned (slash_not_mem known)
  exact ⟨all, scanned, clean, within, graded .disjunction nofun⟩

/-- A text without comments is specialized if it passes the limits and its tokens are in the
catalog. -/
theorem specialize?_isSome_of_catalog {cs : List Char} {all : List Span}
    (scanned : Token.ofText cs = .ok all) (clean : ∀ span ∈ all, span.token.isComment = false)
    (within : Limits.excess? (Expr.significantTokens all) = none)
    (word : Catalog .disjunction (Expr.significantTokens all)) :
    (specialize? cs).isSome = true := by
  have accepted := word.accepted (spaced_of_scanWithin scanned clean)
  obtain ⟨found, known⟩ :=
    Option.isSome_iff_exists.mp (accepted.recognized (cs.length + 1) (Nat.lt_succ_self _))
  have nonempty : Span.significant all ≠ [] := fun none => word.ne_nil (congrArg _ none)
  exact Option.isSome_of_eq_some
    (specialize?_eq_some_iff.mpr ⟨all, scanned, nonempty, within, known⟩)

/-- Exactly the texts of the catalog are specialized: those that are scanned without a comment, pass
the limits and have their tokens in the grammar.  So what stands between the tokens plays no
part. -/
theorem specialized_iff_catalog :
    (∀ cs, (specialize? cs).isSome = true ↔
      ∃ all, Token.ofText cs = .ok all ∧ (∀ span ∈ all, span.token.isComment = false) ∧
        Limits.excess? (Expr.significantTokens all) = none ∧
        Catalog .disjunction (Expr.significantTokens all)) ∧
    ∀ cs cs' all all', Token.ofText cs = .ok all → Token.ofText cs' = .ok all' →
      (∀ span ∈ all, span.token.isComment = false) →
      (∀ span ∈ all', span.token.isComment = false) →
      Expr.significantTokens all = Expr.significantTokens all' →
      (specialize? cs).isSome = (specialize? cs').isSome := by
  have transfer {cs cs' : List Char} {all all' : List Span} (scanned : Token.ofText cs = .ok all)
      (scanned' : Token.ofText cs' = .ok all') (clean : ∀ span ∈ all', span.token.isComment = false)
      (same : Expr.significantTokens all = Expr.significantTokens all')
      (found : (specialize? cs).isSome = true) : (specialize? cs').isSome = true := by
    obtain ⟨all, again, -, within, word⟩ := catalog_of_specialize? found
    cases scanned.symm.trans again
    rw [same] at within word
    exact specialize?_isSome_of_catalog scanned' clean within word
  constructor
  · intro cs
    constructor
    · exact catalog_of_specialize?
    · rintro ⟨all, scanned, clean, within, word⟩
      exact specialize?_isSome_of_catalog scanned clean within word
  · intro cs cs' all all' scanned scanned' clean clean' same
    rw [Bool.eq_iff_iff]
    constructor
    · exact transfer scanned scanned' clean' same
    · exact transfer scanned' scanned clean same.symm

/-- The tokens of a conjunction, where nothing stands between them. -/
def denseSpans : List Span :=
  [⟨.keyword .true, "true".toList, ⟨0, 1, 1⟩⟩, ⟨.operator .and, ['&', '&'], ⟨4, 1, 5⟩⟩,
    ⟨.delimiter .openParen, ['('], ⟨6, 1, 7⟩⟩, ⟨.keyword .false, "false".toList, ⟨7, 1, 8⟩⟩,
    ⟨.delimiter .closeParen, [')'], ⟨12, 1, 13⟩⟩]

/-- The same tokens with blanks between them. -/
def spreadSpans : List Span :=
  [⟨.keyword .true, "true".toList, ⟨0, 1, 1⟩⟩, ⟨.lineBreak, ['\n'], ⟨4, 1, 5⟩⟩,
    ⟨.operator .and, ['&', '&'], ⟨5, 2, 1⟩⟩, ⟨.blanks "\t ", ['\t', ' '], ⟨7, 2, 3⟩⟩,
    ⟨.delimiter .openParen, ['('], ⟨9, 2, 5⟩⟩, ⟨.blanks " ", [' '], ⟨10, 2, 6⟩⟩,
    ⟨.keyword .false, "false".toList, ⟨11, 2, 7⟩⟩, ⟨.delimiter .closeParen, [')'], ⟨16, 2, 12⟩⟩]

theorem specialized_iff_catalog_spread :
    (specialize? "true&&(false)".toList).isSome = true ∧
      Token.ofText "true&&(false)".toList = .ok denseSpans ∧
      Token.ofText "true\n&&\t ( false)".toList = .ok spreadSpans ∧
      (specialize? "true&&(false)".toList).isSome =
        (specialize? "true\n&&\t ( false)".toList).isSome := by
  have dense : Token.ofText "true&&(false)".toList = .ok denseSpans := rfl
  have spread : Token.ofText "true\n&&\t ( false)".toList = .ok spreadSpans := rfl
  have within : Limits.excess? (Expr.significantTokens denseSpans) = none := by decide
  have word : Catalog .disjunction (Expr.significantTokens denseSpans) :=
    .ofConjunction (.and (.ofAtom (.leaf .true)) (.parenthesized (.of_atom (.leaf .false) _)))
  refine ⟨?recognized, dense, spread, ?alike⟩
  case recognized =>
    exact (specialized_iff_catalog.1 _).mpr ⟨_, dense, by decide, within, word⟩
  case alike =>
    exact specialized_iff_catalog.2 _ _ _ _ dense spread (by decide) (by decide) rfl

end Shape

end Trigger
