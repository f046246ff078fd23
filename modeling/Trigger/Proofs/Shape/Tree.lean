import Trigger.Config.Basic
import Trigger.Proofs.Shape.Covers

/-!
# The tree of a recognized text

A text that is recognized as a shape is an expression, and `Shape.Describes` says which trees a
shape stands for.  The recognition splits a text at the last `||` of its top level, and else at the
last `&&`; the grammar groups to the left, by levels.  These agree because each text is an
expression of the level that the operators on its top level leave, which is what `Stands` says:

* to the right of the last `||` there is none, so this part is a conjunction;
* without `||`, neither side of the last `&&` has one, and the right one has no `&&` either, so it
  is a comparison.
-/

namespace Trigger

open Text (splitTopLevel?)

/-! ## Trees -/

namespace Expr

/-- A number. -/
def ofNumber (n : Float) : Expr := .literal (.number n)

/-- A member of the subject. -/
def ofSubject (word : String) : Expr := .chain (.name Config.shapeSubject) [.member word false]

/-- The distance to the closest enemy. -/
def enemyDistance (optional : Bool) : Expr :=
  .call "distance"
    [.chain (.name "closest") [.method "enemy" [] false, .member "pos" optional]]

/-- A bound on the distance to the closest enemy. -/
def ofBound (bound : DistanceBound) (optional : Bool) : Expr :=
  .binary bound.op (enemyDistance optional) (ofNumber bound.limit)

end Expr

open Trigger.Expr

/-- A shape stands for a tree. -/
inductive Shape.Describes : Shape → Expr → Prop
  | constant (value : Bool) : Describes (.constant value) (.literal (.boolean value))
  | health {op : BinaryOp} {limit : Float} :
      op.isOrdering = true →
      Describes (.health op limit) (.binary op (ofSubject "hp") (ofNumber limit))
  | healthFraction {op : BinaryOp} {fraction : Float} :
      op.isOrdering = true →
      Describes (.healthFraction op fraction)
        (.binary op (ofSubject "hp") (.binary .multiply (ofSubject "maxHp") (ofNumber fraction)))
  | distance {bound : DistanceBound} {optional : Bool} :
      bound.op.isOrdering = true → Describes (.distance bound) (ofBound bound optional)
  | distanceRange {lower upper : DistanceBound} {optional optional' : Bool} :
      lower.op.isOrdering = true → upper.op.isOrdering = true →
      Describes (.distanceRange lower upper)
        (.binary .and (ofBound lower optional) (ofBound upper optional'))
  | either {left right : Shape} {l r : Expr} :
      Describes left l → Describes right r → Describes (.either left right) (.binary .or l r)
  | both {left right : Shape} {l r : Expr} :
      Describes left l → Describes right r → Describes (.both left right) (.binary .and l r)

/-! ## Leaves -/

namespace Token

/-- The tokens of a member of the subject. -/
def ofSubject (word : String) : List Token :=
  [.name Config.shapeSubject, .operator .dot, .name word]

/-- The tokens of the distance to the closest enemy, with the given access to its position. -/
def enemyDistance (symbol : Operator) : List Token :=
  .name "distance" :: between .openParen
    [.name "closest", .operator .dot, .name "enemy", .delimiter .openParen, .delimiter .closeParen,
      .operator symbol, .name "pos"] .closeParen

end Token

namespace Derives

theorem ofSubject (word : String) : Derives .unary (Token.ofSubject word) (.ofSubject word) :=
  .bare (.postfixed .name (.moreLinks (.member rfl) .noLinks))

theorem ofNumber (n : Float) : Derives .unary [.number n] (.ofNumber n) :=
  .bare (.postfixed (.literal rfl) .noLinks)

theorem enemyDistance {symbol : Operator} {optional : Bool}
    (access : symbol.access? = some optional) :
    Derives .unary (Token.enemyDistance symbol) (.enemyDistance optional) := by
  have enemy : Derives .link
      (.operator .dot :: .name "enemy" :: Token.between .openParen [] .closeParen)
      (.method "enemy" [] false) := .method rfl .noItems
  have position : Derives .link [.operator symbol, .name "pos"] (.member "pos" optional) :=
    .member access
  have links := Derives.moreLinks enemy (.moreLinks position .noLinks)
  have argument : Derives .expression _ (.chain (.name "closest") _) :=
    expression_of_unary (.bare (.postfixed .name links))
  exact .bare (.postfixed (.call (.someItems (.last argument))) .noLinks)

theorem joined (op : BinaryOp) {levels : List Level} {u w : List Token} {e f : Expr}
    (left : Derives (.binary (op.level :: levels)) u e) (right : Derives (.binary levels) w f) :
    Derives (.binary (op.level :: levels)) (u ++ .operator op.symbol :: w) (.binary op e f) :=
  .join left rfl right

/-- A comparison of two operands. -/
theorem comparison {op : BinaryOp} {u w : List Token} {e f : Expr} (ordering : op.isOrdering = true)
    (left : Derives .unary u e) (right : Derives (.binary (Level.all.drop 3)) w f) :
    Derives (.binary (Level.all.drop 2)) (u ++ .operator op.symbol :: w) (.binary op e f) := by
  have level : op.level = .comparison := by cases op <;> first | rfl | cases ordering
  exact .join (.tighter (left.binary_of_unary _)) level right

end Derives

namespace Pattern

variable {ps : Pattern} {u : List Token} {c : Captures}

/-- Words and symbols in a row. -/
theorem reads_words {words : List String} {tokens : List Token}
    (written : words.map (fun s => Token.written? s.toList) = tokens.map some) :
    Reads (words.map word ++ ps) u c ↔ ∃ w, u = tokens ++ w ∧ Reads ps w c := by
  induction words generalizing tokens u with
  | nil =>
      cases tokens with
      | nil => simp
      | cons _ _ => cases written
  | cons s words ih =>
      cases tokens with
      | nil => cases written
      | cons token tokens =>
          obtain ⟨first, rest⟩ := List.cons.inj written
          constructor
          · rintro ⟨token', v, found, eq, reads⟩
            obtain rfl : token = token' := Option.some.inj (first.symm.trans found)
            obtain ⟨w, rfl, behind⟩ := (ih rest).mp reads
            exact ⟨w, eq, behind⟩
          · rintro ⟨w, eq, behind⟩
            exact ⟨token, tokens ++ w, first, eq, (ih rest).mpr ⟨w, rfl, behind⟩⟩

theorem reads_truth {word : Keyword} :
    Reads (truth word) u c ↔ u = [.keyword word] ∧ c = .empty := by
  have written : Token.written? word.text = some (.keyword word) := by
    cases word <;> rfl
  constructor
  · rintro ⟨token, w, found, rfl, rfl, rfl⟩
    cases written.symm.trans found
    exact ⟨rfl, rfl⟩
  · rintro ⟨rfl, rfl⟩
    exact ⟨_, _, written, rfl, rfl, rfl⟩

theorem reads_health :
    Reads (Pattern.health ++ ps) u c ↔ ∃ w, u = Token.ofSubject "hp" ++ w ∧ Reads ps w c := by
  have written : ["self", ".", "hp"].map (fun s => Token.written? s.toList) =
      (Token.ofSubject "hp").map some := rfl
  exact reads_words written

theorem reads_fullHealth :
    Reads (Pattern.fullHealth ++ ps) u c ↔
      ∃ w, u = Token.ofSubject "maxHp" ++ w ∧ Reads ps w c := by
  have written : ["self", ".", "maxHp"].map (fun s => Token.written? s.toList) =
      (Token.ofSubject "maxHp").map some := rfl
  exact reads_words written

theorem reads_times :
    Reads (word "*" :: ps) u c ↔ ∃ w, u = .operator .times :: w ∧ Reads ps w c := by
  have written : ["*"].map (fun s => Token.written? s.toList) =
      [Token.operator .times].map some := rfl
  exact reads_words written

theorem reads_and :
    Reads (word "&&" :: ps) u c ↔ ∃ w, u = .operator .and :: w ∧ Reads ps w c := by
  have written : ["&&"].map (fun s => Token.written? s.toList) =
      [Token.operator .and].map some := rfl
  exact reads_words written

theorem reads_enemyDistance :
    Reads (Pattern.enemyDistance ++ ps) u c ↔ ∃ symbol optional w,
      symbol.access? = some optional ∧ u = Token.enemyDistance symbol ++ w ∧ Reads ps w c := by
  have front : ["distance", "(", "closest", ".", "enemy", "(", ")"].map
      (fun s => Token.written? s.toList) =
        [.name "distance", .delimiter .openParen, .name "closest", .operator .dot, .name "enemy",
          .delimiter .openParen, .delimiter .closeParen].map some := rfl
  have back : ["pos", ")"].map (fun s => Token.written? s.toList) =
      [.name "pos", .delimiter .closeParen].map some := rfl
  constructor
  · intro reads
    obtain ⟨v, rfl, symbol, optional, v, access, rfl, closing⟩ := (reads_words front).mp reads
    obtain ⟨w, rfl, behind⟩ := (reads_words back).mp closing
    exact ⟨symbol, optional, w, access, rfl, behind⟩
  · rintro ⟨symbol, optional, w, access, rfl, behind⟩
    have closing := (reads_words back).mpr ⟨w, rfl, behind⟩
    exact (reads_words front).mpr ⟨_, rfl, symbol, optional, _, access, rfl, closing⟩

/-- A distance against a number is a comparison. -/
theorem Reads.distanceBy {ops : List BinaryOp} (orderings : ∀ op ∈ ops, op.isOrdering = true)
    (reads : Reads (Pattern.distanceBy ops ++ ps) u c) :
    ∃ bound optional v w c', bound.op.isOrdering = true ∧ u = v ++ w ∧
      Derives (.binary (Level.all.drop 2)) v (ofBound bound optional) ∧
        c = (c'.withNumber bound.limit).withOp bound.op ∧ Reads ps w c' := by
  rw [Pattern.distanceBy, List.append_assoc] at reads
  obtain ⟨symbol, optional, v, access, rfl, comparison⟩ := reads_enemyDistance.mp reads
  obtain ⟨op, v, c, mem, rfl, rfl, number⟩ := comparison
  obtain ⟨n, w, c, rfl, rfl, behind⟩ := number
  have ordering := orderings op mem
  have word := Derives.comparison ordering (.enemyDistance access)
    ((Derives.ofNumber n).binary_of_unary _)
  exact ⟨⟨op, n⟩, optional, _, w, c, ordering, by simp, word, rfl, behind⟩

theorem isOrdering_of_mem {op : BinaryOp} (mem : op ∈ orderings) : op.isOrdering = true := by
  have all : ∀ op ∈ orderings, op.isOrdering = true := by decide
  exact all op mem

theorem Reads.distanceThreshold (reads : Reads Pattern.distanceThreshold u c) :
    ∃ bound optional, bound.op.isOrdering = true ∧
      Derives (.binary (Level.all.drop 2)) u (ofBound bound optional) ∧
        c = ⟨[bound.op], [bound.limit]⟩ := by
  rw [distanceThreshold_eq, ← List.append_nil (Pattern.distanceBy _)] at reads
  obtain ⟨bound, optional, v, w, c, ordering, rfl, word, rfl, rfl, rfl⟩ :=
    reads.distanceBy (by decide)
  exact ⟨bound, optional, ordering, by simpa using word, rfl⟩

theorem Reads.distanceRange (reads : Reads Pattern.distanceRange u c) :
    ∃ lower upper optional optional', lower.op.isOrdering = true ∧ upper.op.isOrdering = true ∧
      Derives (.binary (Level.all.drop 1)) u
        (.binary .and (ofBound lower optional) (ofBound upper optional')) ∧
        c = ⟨[lower.op, upper.op], [lower.limit, upper.limit]⟩ := by
  rw [distanceRange_eq] at reads
  obtain ⟨lower, optional, v, w, c, ordering, rfl, left, rfl, more⟩ :=
    reads.distanceBy (by decide)
  obtain ⟨w, rfl, rest⟩ := reads_and.mp more
  rw [← List.append_nil (Pattern.distanceBy _)] at rest
  obtain ⟨upper, optional', w, _, _, ordering', rfl, right, rfl, rfl, rfl⟩ :=
    Reads.distanceBy (by decide) rest
  rw [List.append_nil]
  have word := Derives.joined .and (.tighter left) right
  exact ⟨lower, upper, optional, optional', ordering, ordering', word, rfl⟩

theorem Reads.healthThreshold (reads : Reads Pattern.healthThreshold u c) :
    ∃ op limit, op.isOrdering = true ∧
      Derives (.binary (Level.all.drop 2)) u
        (.binary op (Expr.ofSubject "hp") (ofNumber limit)) ∧
        c = ⟨[op], [limit]⟩ := by
  obtain ⟨v, rfl, ordered⟩ := reads_health.mp reads
  obtain ⟨op, v, c, mem, rfl, rfl, number⟩ := ordered
  obtain ⟨limit, w, c, rfl, rfl, rfl, rfl⟩ := number
  have ordering := isOrdering_of_mem mem
  have right := (Derives.ofNumber limit).binary_of_unary (Level.all.drop 3)
  exact ⟨op, limit, ordering, .comparison ordering (.ofSubject "hp") right, rfl⟩

theorem Reads.healthFraction (reads : Reads Pattern.healthFraction u c) :
    ∃ op fraction, op.isOrdering = true ∧
      Derives (.binary (Level.all.drop 2)) u
        (.binary op (Expr.ofSubject "hp")
          (.binary .multiply (Expr.ofSubject "maxHp") (ofNumber fraction))) ∧
        c = ⟨[op], [fraction]⟩ := by
  obtain ⟨v, rfl, ordered⟩ := reads_health.mp reads
  obtain ⟨op, v, c, mem, rfl, rfl, full⟩ := ordered
  obtain ⟨v, rfl, product⟩ := reads_fullHealth.mp full
  obtain ⟨v, rfl, number⟩ := reads_times.mp product
  obtain ⟨fraction, w, c, rfl, rfl, rfl, rfl⟩ := number
  have ordering := isOrdering_of_mem mem
  have product := Derives.joined .multiply ((Derives.ofSubject "maxHp").binary_of_unary _)
    (.operand (.ofNumber fraction))
  exact ⟨op, fraction, ordering, .comparison ordering (.ofSubject "hp") (.tighter product), rfl⟩

end Pattern

/-! ## Recognized texts -/

/-- The tokens of a text are an expression of the level that the operators on its top level
leave. -/
structure Stands (cs : List Char) (u : List Token) (e : Expr) : Prop where
  /-- It is an expression. -/
  expression : Derives (.binary Level.all) u e
  /-- Without a disjunction it is a conjunction. -/
  conjunction : splitTopLevel? Operator.or.text cs = none →
    Derives (.binary (Level.all.drop 1)) u e
  /-- Without either it is a comparison. -/
  comparison : splitTopLevel? Operator.or.text cs = none →
    splitTopLevel? Operator.and.text cs = none → Derives (.binary (Level.all.drop 2)) u e

theorem stands_of_comparison {u : List Token} {e : Expr} (cs : List Char)
    (word : Derives (.binary (Level.all.drop 2)) u e) : Stands cs u e where
  expression := .tighter (.tighter word)
  conjunction _ := .tighter word
  comparison _ _ := word

namespace Shape

/-- In front of a text, tokens stand for a tree that the shape describes. -/
def Fits (shape : Shape) (cs tail : List Char) (ts : List Token) : Prop :=
  ∃ u w e, ts = u ++ w ∧ Scans tail w ∧ shape.Describes e ∧ Stands cs u e

section
variable {cs tail : List Char} {ts : List Token} {shape : Shape} (closes : Closes tail)
  (scans : Scans (cs ++ tail) ts)
include closes scans

/-- A text that matches a pattern of comparisons. -/
theorem fits_of_captures? {ps : Pattern} {c : Captures} (separate : ps.separate = true)
    (found : ps.captures? cs = some c)
    (word : ∀ u, ps.Reads u c →
      ∃ e, shape.Describes e ∧ Derives (.binary (Level.all.drop 2)) u e) :
    shape.Fits cs tail ts := by
  obtain ⟨u, w, eq, behind, reads⟩ := Pattern.reads_of_captures? separate found closes scans
  obtain ⟨e, describes, word⟩ := word u reads
  exact ⟨u, w, e, eq, behind, describes, stands_of_comparison cs word⟩

theorem fits_keyword {word : Keyword} {value : Bool} (literal : word.literal = .boolean value)
    (found : ((Pattern.truth word).captures? cs).isSome = true) :
    (constant value).Fits cs tail ts := by
  obtain ⟨c, found⟩ := Option.isSome_iff_exists.mp found
  have separate : (Pattern.truth word).separate = true := by
    cases word <;> rfl
  refine fits_of_captures? closes scans separate found fun u reads => ?_
  obtain ⟨rfl, -⟩ := Pattern.reads_truth.mp reads
  have primary : Derives .primary [.keyword word] (.literal (.boolean value)) :=
    .literal (congrArg some literal)
  have operand : Derives .unary [.keyword word] (.literal (.boolean value)) :=
    .bare (.postfixed primary .noLinks)
  exact ⟨_, .constant value, operand.binary_of_unary _⟩

theorem fits_truth (found : truth? cs = some shape) : shape.Fits cs tail ts := by
  unfold truth? at found
  split at found
  · rename_i matched
    cases found
    exact fits_keyword closes scans rfl matched
  · split at found
    · rename_i matched
      cases found
      exact fits_keyword closes scans rfl matched
    · cases found

theorem fits_distance (found : distance? cs = some shape) : shape.Fits cs tail ts := by
  unfold distance? at found
  split at found
  · rename_i op limit matched
    cases found
    refine fits_of_captures? closes scans rfl matched fun u reads => ?_
    obtain ⟨bound, optional, ordering, word, same⟩ := Pattern.Reads.distanceThreshold reads
    cases same
    exact ⟨_, .distance ordering, word⟩
  · cases found

theorem fits_health (found : health? cs = some shape) : shape.Fits cs tail ts := by
  unfold health? at found
  split at found
  · rename_i op limit matched
    cases found
    refine fits_of_captures? closes scans rfl matched fun u reads => ?_
    obtain ⟨op, limit, ordering, word, same⟩ := Pattern.Reads.healthThreshold reads
    cases same
    exact ⟨_, .health ordering, word⟩
  · cases found

theorem fits_healthFraction (found : healthFraction? cs = some shape) : shape.Fits cs tail ts := by
  unfold healthFraction? at found
  split at found
  · rename_i op fraction matched
    cases found
    refine fits_of_captures? closes scans rfl matched fun u reads => ?_
    obtain ⟨op, fraction, ordering, word, same⟩ := Pattern.Reads.healthFraction reads
    cases same
    exact ⟨_, .healthFraction ordering, word⟩
  · cases found

/-- The range of distances is a conjunction, with its operator on the top level. -/
theorem fits_distanceRange (found : distanceRange? cs = some shape) : shape.Fits cs tail ts := by
  unfold distanceRange? at found
  split at found
  · rename_i above below least most matched
    cases found
    obtain ⟨u, w, eq, behind, reads⟩ :=
      Pattern.reads_of_captures? rfl matched closes scans
    obtain ⟨lower, upper, optional, optional', ordering, ordering', word, same⟩ :=
      Pattern.Reads.distanceRange reads
    cases same
    refine ⟨u, w, _, eq, behind, .distanceRange ordering ordering', .tighter word,
      fun _ => word, ?_⟩
    intro _ unsplit
    have split := Text.splitTopLevel?_of_distanceRange matched
    rw [unsplit] at split
    cases split
  · cases found

/-- A text that matches a pattern of the catalog. -/
theorem fits_leaf {form : Form} (found : leaf? cs = some (form, shape)) :
    shape.Fits cs tail ts := by
  simp only [leaf?, Option.orElse_eq_orElse, Option.orElse_eq_or, Option.or_eq_some_iff,
    Option.map_eq_some_iff, Prod.mk.injEq] at found
  rcases found with ⟨_, known, -, rfl⟩ | ⟨-, ⟨_, known, -, rfl⟩ | ⟨-, ⟨_, known, -, rfl⟩ |
    ⟨-, ⟨_, known, -, rfl⟩ | ⟨-, _, known, -, rfl⟩⟩⟩⟩
  · exact fits_truth closes scans known
  · exact fits_distanceRange closes scans known
  · exact fits_distance closes scans known
  · exact fits_healthFraction closes scans known
  · exact fits_health closes scans known

end

/-! ### Texts made of recognized ones -/

/-- A recognized text, in front of whatever may stand behind it, is an expression. -/
def Recognizes (recognize : List Char → Option (Form × Shape)) : Prop :=
  ∀ (cs tail : List Char) (ts : List Token) (form : Form) (shape : Shape),
    recognize cs = some (form, shape) → Closes tail → Scans (cs ++ tail) ts →
      shape.Fits cs tail ts

/-- The tokens of a text stand for a tree that the shape describes. -/
def Tells (shape : Shape) (cs : List Char) (u : List Token) : Prop :=
  ∃ e, shape.Describes e ∧ Stands cs u e

theorem covers_leaf {cs : List Char} {form : Form} {shape : Shape}
    (found : leaf? cs = some (form, shape)) : Covers cs (shape.Tells cs) := by
  intro tail ts closes scans
  obtain ⟨u, w, e, eq, behind, tells⟩ := fits_leaf closes scans found
  exact ⟨u, w, eq, behind, e, tells⟩

theorem covers_parenthesized {cs inner : List Char} {shape : Shape}
    (stripped : Text.stripParens? cs = some inner) (covers : Covers inner (shape.Tells inner)) :
    Covers cs (shape.Tells cs) := by
  refine (covers.parenthesized stripped).mono ?_
  rintro _ ⟨u, ⟨e, describes, stands⟩, rfl⟩
  have primary := Derives.parenthesized (.expression stands.expression)
  have operand : Derives .unary (Token.between .openParen u .closeParen) e := by
    rw [← List.append_nil (Token.between _ _ _)]
    exact .bare (.postfixed primary .noLinks)
  exact ⟨e, describes, stands_of_comparison cs (operand.binary_of_unary _)⟩

section
variable {cs left right : List Char} {l r : Shape} (first : Covers left (l.Tells left))
  (last : Covers right (r.Tells right))
include first last

/-- To the right of the last `||` there is none. -/
theorem covers_disjunction (split : splitTopLevel? Operator.or.text cs = some (left, right)) :
    Covers cs ((either l r).Tells cs) := by
  obtain ⟨-, ⟨rfl, -⟩, -⟩ := Text.splitTopLevel?_eq_some (by decide) (by decide) split
  have unsplit := Text.splitTopLevel?_right (by decide) (by decide) split
  refine (first.around .or rfl last).mono ?_
  rintro _ ⟨u, w, ⟨⟨e, describes, stands⟩, f, describes', stands'⟩, rfl⟩
  have word := Derives.joined .or stands.expression (stands'.conjunction unsplit)
  refine ⟨_, .either describes describes', word, ?_, ?_⟩
  · intro none
    cases split.symm.trans none
  · intro none
    cases split.symm.trans none

/-- Without `||`, neither side of the last `&&` has one, and to the right there is no `&&`. -/
theorem covers_conjunction (whole : splitTopLevel? Operator.or.text cs = none)
    (split : splitTopLevel? Operator.and.text cs = some (left, right)) :
    Covers cs ((both l r).Tells cs) := by
  obtain ⟨-, ⟨rfl, -⟩, -⟩ := Text.splitTopLevel?_eq_some (by decide) (by decide) split
  have unsplit := Text.splitTopLevel?_right (by decide) (by decide) split
  obtain ⟨none, none'⟩ :=
    Text.splitTopLevel?_parts (by decide) (by decide) (by decide) (by decide) split whole
  refine (first.around .and rfl last).mono ?_
  rintro _ ⟨u, w, ⟨⟨e, describes, stands⟩, f, describes', stands'⟩, rfl⟩
  have word := Derives.joined .and (stands.conjunction none) (stands'.comparison none' unsplit)
  refine ⟨_, .both describes describes', .tighter word, fun _ => word, ?_⟩
  intro _ none
  cases split.symm.trans none

end

theorem recognizes_within (depth : Nat) : Recognizes (ofTextWithin depth) := by
  intro cs tail ts form shape found closes scans
  have covers :=
    ofTextWithin_induction (P := fun cs shape => Covers cs (shape.Tells cs)) covers_leaf
    covers_parenthesized (fun split first last => covers_disjunction first last split)
    (fun whole split first last => covers_conjunction first last whole split) found
  obtain ⟨u, w, eq, behind, e, tells⟩ := covers tail ts closes scans
  exact ⟨u, w, e, eq, behind, tells⟩

theorem specialize?_eq_some_iff {cs : List Char} {found : Form × Shape} :
    specialize? cs = some found ↔
      ∃ all, Token.ofText cs = .ok all ∧ Span.significant all ≠ [] ∧
        Limits.excess? (Expr.significantTokens all) = none ∧ ofText? cs = some found := by
  unfold specialize?
  constructor
  · intro known
    split at known
    · rename_i spans scanned
      obtain ⟨all, cut, rfl, nonempty, within⟩ := (Expr.significantOfText_ok_iff _ _).mp scanned
      exact ⟨all, cut, nonempty, within, known⟩
    · cases known
  · rintro ⟨all, cut, nonempty, within, known⟩
    rw [(Expr.significantOfText_ok_iff _ _).mpr ⟨all, cut, rfl, nonempty, within⟩]
    exact known

/-- A text that is specialized is an expression, and its tree is one that the shape describes. -/
theorem parses_of_specialize? {cs : List Char} {form : Form} {shape : Shape}
    (found : specialize? cs = some (form, shape)) :
    ∃ e, Expr.ofText cs = .ok e ∧ shape.Describes e := by
  obtain ⟨all, cut, -, within, known⟩ := specialize?_eq_some_iff.mp found
  have scans := scans_of_ofText cut
  rw [← List.append_nil cs] at scans
  obtain ⟨u, w, e, eq, behind, describes, stands⟩ :=
    recognizes_within _ cs [] _ form shape known closes_nil scans
  rw [behind.nil_inv, List.append_nil] at eq
  refine ⟨e, (Expr.ofText_ok_iff cs e).mpr ⟨all, cut, within, ?_⟩, describes⟩
  rw [eq]
  exact .expression stands.expression

end Shape

end Trigger
