import Trigger.Proofs.Shape.Spaced
import Trigger.Proofs.Shape.Tree

/-!
# The catalog as a grammar of tokens

The triggers that have a shape are given by their tokens:

* a leaf is a truth value, a comparison of the subject's health or one of the distance to the
  closest enemy (`Leaf`);
* `Disjunction = Disjunction "||" Conjunction | Conjunction`,
  `Conjunction = Conjunction "&&" Atom | Atom` and `Atom = leaf | "(" Disjunction ")"` (`Catalog`).

The tokens of a recognized text are of this grammar.  The recognition looks for operators on the top
level of the text, and each grade of the grammar leaves out some of them (`Grade.apart`): a text is
of every grade whose operators are not found (`Graded`).
-/

namespace Trigger

open Text (splitTopLevel?)

/-! ## The grammar -/

/-- The operators that compare a health or a distance. -/
def Operator.orderings : List Operator := [.less, .lessEqual, .greater, .greaterEqual]

/-- The tokens of a trigger that has a pattern. -/
inductive Leaf : List Token → Prop
  | true : Leaf [.keyword .true]
  | false : Leaf [.keyword .false]
  | health {symbol : Operator} {limit : Float} :
      symbol ∈ Operator.orderings →
      Leaf [.name "self", .operator .dot, .name "hp", .operator symbol, .number limit]
  | healthFraction {symbol : Operator} {fraction : Float} :
      symbol ∈ Operator.orderings →
      Leaf [.name "self", .operator .dot, .name "hp", .operator symbol,
        .name "self", .operator .dot, .name "maxHp", .operator .times, .number fraction]
  | distance {access symbol : Operator} {limit : Float} :
      access = .dot ∨ access = .optionalDot → symbol ∈ Operator.orderings →
      Leaf [.name "distance", .delimiter .openParen, .name "closest", .operator .dot, .name "enemy",
        .delimiter .openParen, .delimiter .closeParen, .operator access, .name "pos",
        .delimiter .closeParen, .operator symbol, .number limit]

/-- The grades of the catalog, the loosest first. -/
inductive Grade where
  | disjunction | conjunction | atom

/-- The characters of the operators that stand between texts of the grade in brackets only. -/
def Grade.apart : Grade → List Char
  | .disjunction => []
  | .conjunction => ['|']
  | .atom => ['|', '&']

/-- The tokens of the triggers that have a shape. -/
inductive Catalog : Grade → List Token → Prop
  | or {u w : List Token} :
      Catalog .disjunction u → Catalog .conjunction w →
      Catalog .disjunction (u ++ .operator .or :: w)
  | ofConjunction {u : List Token} : Catalog .conjunction u → Catalog .disjunction u
  | and {u w : List Token} :
      Catalog .conjunction u → Catalog .atom w → Catalog .conjunction (u ++ .operator .and :: w)
  | ofAtom {u : List Token} : Catalog .atom u → Catalog .conjunction u
  | leaf {u : List Token} : Leaf u → Catalog .atom u
  | parenthesized {u : List Token} :
      Catalog .disjunction u →
        Catalog .atom (.delimiter .openParen :: (u ++ [.delimiter .closeParen]))

namespace Catalog

theorem of_atom {u : List Token} (word : Catalog .atom u) (grade : Grade) : Catalog grade u := by
  cases grade with
  | disjunction => exact .ofConjunction (.ofAtom word)
  | conjunction => exact .ofAtom word
  | atom => exact word

theorem ne_nil {grade : Grade} {u : List Token} (word : Catalog grade u) : u ≠ [] := by
  induction word with
  | or _ _ _ _ | and _ _ _ _ => simp
  | ofConjunction _ ih | ofAtom _ ih => exact ih
  | leaf leaf => cases leaf <;> simp
  | parenthesized _ _ => simp

end Catalog

/-! ## Leaves and patterns -/

namespace Pattern

/-- The patterns of the leaves.  A range of distances is two leaves. -/
def leaves : List Pattern :=
  [truth .true, truth .false, healthThreshold, healthFraction, distanceThreshold]

theorem symbol_mem_orderings {op : BinaryOp} (mem : op ∈ orderings) :
    op.symbol ∈ Operator.orderings := by
  have all : ∀ op ∈ orderings, op.symbol ∈ Operator.orderings := by decide
  exact all op mem

theorem access?_eq_some {access : Operator} {optional : Bool}
    (found : access.access? = some optional) : access = .dot ∨ access = .optionalDot := by
  cases access with
  | dot => exact .inl rfl
  | optionalDot => exact .inr rfl
  | _ => cases found

/-- A distance against a number is a leaf. -/
theorem Reads.distanceLeaf {ops : List BinaryOp} {ps : Pattern} {u : List Token} {c : Captures}
    (ordered : ∀ op ∈ ops, op ∈ orderings) (reads : Reads (Pattern.distanceBy ops ++ ps) u c) :
    ∃ v w c', u = v ++ w ∧ Leaf v ∧ Reads ps w c' := by
  rw [Pattern.distanceBy, List.append_assoc] at reads
  obtain ⟨access, optional, v, found, rfl, comparison⟩ := reads_enemyDistance.mp reads
  obtain ⟨op, v, c, mem, rfl, rfl, number⟩ := comparison
  obtain ⟨n, w, c, rfl, rfl, behind⟩ := number
  have leaf : Leaf (Token.enemyDistance access ++ [.operator op.symbol, .number n]) :=
    .distance (access?_eq_some found) (symbol_mem_orderings (ordered op mem))
  exact ⟨_, w, c, by simp, leaf, behind⟩

theorem leaf_of_reads {ps : Pattern} (mem : ps ∈ leaves) {u : List Token} {c : Captures}
    (reads : Reads ps u c) : Leaf u := by
  simp only [leaves, List.mem_cons, List.not_mem_nil, or_false] at mem
  rcases mem with rfl | rfl | rfl | rfl | rfl
  · rw [(reads_truth.mp reads).1]
    exact .true
  · rw [(reads_truth.mp reads).1]
    exact .false
  · obtain ⟨v, rfl, op, w, c, mem, rfl, rfl, n, w, c, rfl, rfl, rfl, rfl⟩ := reads_health.mp reads
    exact .health (symbol_mem_orderings mem)
  · obtain ⟨v, rfl, op, w, c, mem, rfl, rfl, full⟩ := reads_health.mp reads
    obtain ⟨v, rfl, product⟩ := reads_fullHealth.mp full
    obtain ⟨v, rfl, n, w, c, rfl, rfl, rfl, rfl⟩ := reads_times.mp product
    exact .healthFraction (symbol_mem_orderings mem)
  · rw [distanceThreshold_eq, ← List.append_nil (distanceBy _)] at reads
    obtain ⟨v, w, c, rfl, leaf, rfl, rfl⟩ := Reads.distanceLeaf (fun _ mem => mem) reads
    rwa [List.append_nil]

/-- A range of distances is two leaves. -/
theorem catalog_of_distanceRange {u : List Token} {c : Captures} (reads : Reads distanceRange u c) :
    Catalog .conjunction u := by
  rw [distanceRange_eq] at reads
  obtain ⟨v, w, c, rfl, left, both⟩ := Reads.distanceLeaf (by decide) reads
  obtain ⟨w, rfl, more⟩ := reads_and.mp both
  rw [← List.append_nil (distanceBy _)] at more
  obtain ⟨w, _, c, rfl, right, rfl, rfl⟩ := Reads.distanceLeaf (by decide) more
  rw [List.append_nil]
  exact .and (.ofAtom (.leaf left)) (.leaf right)

end Pattern

/-! ## Recognized texts -/

/-- The tokens of a text are of each grade whose operators are not on the top level of the text. -/
def Graded (cs : List Char) (u : List Token) : Prop :=
  ∀ grade : Grade, (∀ c ∈ grade.apart, splitTopLevel? [c, c] cs = none) → Catalog grade u

theorem graded_of_atom (cs : List Char) {u : List Token} (word : Catalog .atom u) : Graded cs u :=
  fun grade _ => word.of_atom grade

/-- Where a text is split at an operator, its tokens are of the grades that allow the operator. -/
theorem Graded.of_split {cs : List Char} {u : List Token} {c : Char}
    (split : (splitTopLevel? [c, c] cs).isSome = true)
    (words : ∀ grade : Grade, c ∉ grade.apart → Catalog grade u) : Graded cs u := by
  intro grade unsplit
  refine words grade fun mem => ?_
  rw [unsplit c mem] at split
  cases split

namespace Shape

theorem graded_of_captures? {ps : Pattern} {cs : List Char} {c : Captures}
    (mem : ps ∈ Pattern.leaves)
    (found : ps.captures? cs = some c) : Covers cs (Graded cs) := by
  have separate : Pattern.leaves.all Pattern.separate = true := by decide +kernel
  refine (covers_of_captures? (List.all_eq_true.mp separate ps mem) found).mono fun u reads => ?_
  exact graded_of_atom cs (.leaf (Pattern.leaf_of_reads mem reads))

theorem graded_distanceRange {cs : List Char} {c : Captures}
    (found : Pattern.distanceRange.captures? cs = some c) : Covers cs (Graded cs) := by
  refine (covers_of_captures? (by decide +kernel) found).mono fun u reads => ?_
  have word := Pattern.catalog_of_distanceRange reads
  refine .of_split (Text.splitTopLevel?_of_distanceRange found) fun grade allows => ?_
  cases grade with
  | disjunction => exact .ofConjunction word
  | conjunction => exact word
  | atom => exact absurd (by simp [Grade.apart]) allows

/-- A leaf of the recognition matches one of the patterns. -/
theorem captures?_of_leaf? {cs : List Char} {form : Form} {shape : Shape}
    (found : leaf? cs = some (form, shape)) :
    ∃ ps ∈ Pattern.distanceRange :: Pattern.leaves, ∃ c, ps.captures? cs = some c := by
  simp only [leaf?, Option.orElse_eq_orElse, Option.orElse_eq_or, Option.or_eq_some_iff,
    Option.map_eq_some_iff, Prod.mk.injEq] at found
  rcases found with ⟨_, known, -, -⟩ | ⟨-, ⟨_, known, -, -⟩ | ⟨-, ⟨_, known, -, -⟩ |
    ⟨-, ⟨_, known, -, -⟩ | ⟨-, _, known, -, -⟩⟩⟩⟩
  · unfold truth? at known
    split at known
    · rename_i matched
      exact ⟨_, by simp [Pattern.leaves], Option.isSome_iff_exists.mp matched⟩
    · split at known
      · rename_i matched
        exact ⟨_, by simp [Pattern.leaves], Option.isSome_iff_exists.mp matched⟩
      · cases known
  · unfold distanceRange? at known
    split at known
    · rename_i matched
      exact ⟨_, by simp, _, matched⟩
    · cases known
  · unfold distance? at known
    split at known
    · rename_i matched
      exact ⟨_, by simp [Pattern.leaves], _, matched⟩
    · cases known
  · unfold healthFraction? at known
    split at known
    · rename_i matched
      exact ⟨_, by simp [Pattern.leaves], _, matched⟩
    · cases known
  · unfold health? at known
    split at known
    · rename_i matched
      exact ⟨_, by simp [Pattern.leaves], _, matched⟩
    · cases known

theorem graded_leaf {cs : List Char} {form : Form} {shape : Shape}
    (found : leaf? cs = some (form, shape)) : Covers cs (Graded cs) := by
  obtain ⟨ps, mem, c, matched⟩ := captures?_of_leaf? found
  rcases List.mem_cons.mp mem with rfl | leaf
  · exact graded_distanceRange matched
  · exact graded_of_captures? leaf matched

theorem graded_parenthesized {cs inner : List Char} (stripped : Text.stripParens? cs = some inner)
    (covers : Covers inner (Graded inner)) : Covers cs (Graded cs) := by
  refine (covers.parenthesized stripped).mono ?_
  rintro _ ⟨u, graded, rfl⟩
  exact graded_of_atom cs (.parenthesized (graded .disjunction nofun))

section
variable {cs left right : List Char} (first : Covers left (Graded left))
  (last : Covers right (Graded right))
include first last

/-- To the right of the last `||` there is none. -/
theorem graded_disjunction (split : splitTopLevel? Operator.or.text cs = some (left, right)) :
    Covers cs (Graded cs) := by
  obtain ⟨-, ⟨rfl, -⟩, -⟩ := Text.splitTopLevel?_eq_some (by decide) (by decide) split
  have unsplit : splitTopLevel? ['|', '|'] right = none :=
    Text.splitTopLevel?_right (by decide) (by decide) split
  refine (first.around .or rfl last).mono ?_
  rintro _ ⟨u, w, ⟨graded, graded'⟩, rfl⟩
  have word : Catalog .conjunction w := graded' .conjunction (by simpa [Grade.apart] using unsplit)
  refine .of_split (Option.isSome_of_eq_some split) fun grade allows => ?_
  cases grade with
  | disjunction => exact .or (graded .disjunction nofun) word
  | conjunction | atom => exact absurd (by simp [Grade.apart]) allows

/-- Without `||`, neither side of the last `&&` has one, and to the right there is no `&&`. -/
theorem graded_conjunction (whole : splitTopLevel? Operator.or.text cs = none)
    (split : splitTopLevel? Operator.and.text cs = some (left, right)) : Covers cs (Graded cs) := by
  obtain ⟨-, ⟨rfl, -⟩, -⟩ := Text.splitTopLevel?_eq_some (by decide) (by decide) split
  have unsplit : splitTopLevel? ['&', '&'] right = none :=
    Text.splitTopLevel?_right (by decide) (by decide) split
  obtain ⟨none, none'⟩ :
      splitTopLevel? ['|', '|'] left = none ∧ splitTopLevel? ['|', '|'] right = none :=
    Text.splitTopLevel?_parts (by decide) (by decide) (by decide) (by decide) split whole
  refine (first.around .and rfl last).mono ?_
  rintro _ ⟨u, w, ⟨graded, graded'⟩, rfl⟩
  have word : Catalog .conjunction u := graded .conjunction (by simpa [Grade.apart] using none)
  have word' : Catalog .atom w := graded' .atom (by simp [Grade.apart, none', unsplit])
  refine .of_split (Option.isSome_of_eq_some split) fun grade allows => ?_
  cases grade with
  | disjunction => exact .ofConjunction (.and word word')
  | conjunction => exact .and word word'
  | atom => exact absurd (by simp [Grade.apart]) allows

end

/-- The tokens of a recognized text are in the catalog. -/
theorem covers_of_ofTextWithin {depth : Nat} {cs : List Char} {form : Form} {shape : Shape}
    (found : ofTextWithin depth cs = some (form, shape)) : Covers cs (Graded cs) :=
  ofTextWithin_induction (P := fun cs _ => Covers cs (Graded cs)) graded_leaf graded_parenthesized
    (fun split first last => graded_disjunction first last split)
    (fun whole split first last => graded_conjunction first last whole split) found

end Shape

end Trigger
