import Trigger.Expr.OfText
import Trigger.Proofs.Expr.Derivation
import Trigger.Proofs.Parser.Reading

/-!
# The parser reads the grammar

`Expr.parse` accepts an expression exactly where the grammar has one, and it reads the longest one.
Each phrase of the grammar is read by a parser of its own.  The items that may start a phrase and
those that may go on behind it are below; a parser never has to look back because the two sets are
apart wherever one phrase stands behind another:

* A primary expression and a link are gone on with by an opening parenthesis only.
* A postfixed expression is gone on with by a link too, and so is a unary one.
* Operands with operators between them are gone on with by an operator of their levels too.

The runs of the rules are bounded in depth.  A unary operand is shorter than the operator in front
of it, and an expression is shorter than the brackets around it, so two calls for each token
suffice.
-/

namespace Trigger

namespace Token

/-! ## What starts a phrase -/

/-- The tokens that a primary expression may start with. -/
def startsPrimary : Token → Bool
  | delimiter .openParen | delimiter .openBracket | delimiter .openBrace => true
  | number _ | string _ | keyword _ | name _ => true
  | _ => false

/-- The tokens that an expression may start with. -/
def startsExpression : Token → Bool
  | operator symbol => symbol.unary?.isSome
  | t => t.startsPrimary

/-- The tokens that a link may start with. -/
def startsLink : Token → Bool
  | delimiter .openBracket => true
  | operator symbol => symbol.access?.isSome
  | _ => false

/-- The tokens that arguments start with. -/
def opensCall (t : Token) : Prop := t = .delimiter .openParen

/-- The tokens that may go on behind operands with operators of the given levels between them. -/
def goesOn (levels : List Level) (t : Token) : Prop :=
  t.opensCall ∨ t.startsLink = true ∨
    ∃ level ∈ levels, (t.meaning? (Operator.binaryAt? level)).isSome = true

theorem not_opensCall_of_startsLink (t : Token) (starts : t.startsLink = true) : ¬ t.opensCall := by
  rintro rfl
  cases starts

end Token

open Token Trigger.Language

theorem startsIn_primary : StartsIn (Derives .primary) (startsPrimary · = true) := by
  intro u e word
  cases word with
  | @literal t _ writes =>
      refine ⟨t, [], rfl, ?_⟩
      cases t <;> first | rfl | cases writes
  | _ => exact ⟨_, _, rfl, rfl⟩

theorem startsIn_link : StartsIn (Derives .link) (startsLink · = true) := by
  intro u link word
  cases word with
  | index _ => exact ⟨_, _, rfl, rfl⟩
  | member means | method means _ => exact ⟨_, _, rfl, by simp [startsLink, means]⟩

theorem startsIn_postfixed : StartsIn (Derives .postfixed) (startsPrimary · = true) := by
  intro u e word
  obtain ⟨_, words, rfl⟩ := (Derives.postfixed_iff u e).mpr word
  exact startsIn_primary.seq _ u _ words

theorem startsIn_unary : StartsIn (Derives .unary) (startsExpression · = true) := by
  intro u e word
  cases word with
  | @apply op _ _ _ => exact ⟨_, _, rfl, by simp [startsExpression, Derives.unary?_symbol]⟩
  | bare inner =>
      obtain ⟨t, w, rfl, ht⟩ := startsIn_postfixed u e inner
      refine ⟨t, w, rfl, ?_⟩
      cases t <;> first | exact ht | cases ht

theorem startsIn_binary (levels : List Level) :
    StartsIn (Derives (.binary levels)) (startsExpression · = true) := by
  induction levels with
  | nil => exact fun u e word => startsIn_unary u e ((Derives.operand_iff u e).mpr word)
  | cons level levels ih =>
      intro u e word
      exact (ih.seq _).map _ u e ((Derives.binary_iff level levels u e).mpr word)

theorem startsIn_expression : StartsIn (Derives .expression) (startsExpression · = true) :=
  fun u e word => startsIn_binary _ u e ((Derives.expression_iff u e).mpr word)

theorem startsIn_entry : StartsIn (Derives .entry) fun t => t.key?.isSome = true :=
  fun u v word => (startsIn_item key?).seq _ u v ((Derives.entry_iff u v).mpr word)

theorem startsIn_arguments : StartsIn Derives.Arguments opensCall :=
  startsIn_bracketed _ _ _

namespace Production

/-! ## Single tokens -/

section
variable (callRule : {α : Type} → Production α → Run Token α) (bound : Nat)

theorem reads_name : Run.Reads (name.run callRule) (item name?) (fun _ => False) bound :=
  (Run.reads_satisfy _ bound).within _

theorem reads_meaning {α : Type} (read : Operator → Option α) :
    Run.Reads ((meaning read).run callRule) (item (meaning? read)) (fun _ => False) bound :=
  Run.reads_satisfy _ bound

theorem reads_delimiter (symbol : Delimiter) :
    Run.Reads ((delimiter symbol).run callRule) (only (.delimiter symbol)) (fun _ => False)
      bound := by
  unfold delimiter
  cases delimiterName? symbol with
  | none => exact Run.reads_equal _ bound
  | some part => exact (Run.reads_equal _ bound).within part

/-- Either of two tokens. -/
theorem reads_either {α : Type} {first second : Run Token α} {read read' both : Token → Option α}
    (left : Run.Reads first (item read) (fun _ => False) bound)
    (right : Run.Reads second (item read') (fun _ => False) bound)
    (apart : ∀ t, (read t).isSome = true → ¬ (read' t).isSome = true)
    (same : ∀ t, both t = (read t).or (read' t)) :
    Run.Reads (Run.orElse first second) (item both) (fun _ => False) bound := by
  refine (left.orElse right (startsIn_item read) (startsIn_item read') apart).congr ?_ ?_
  · intro u v
    constructor
    · rintro (⟨t, rfl, ht⟩ | ⟨t, rfl, ht⟩)
      · exact ⟨t, rfl, by simp [same, ht]⟩
      · have none : read t = none := by
          cases found : read t with
          | none => rfl
          | some w => exact absurd (by simp [ht]) (apart t (by simp [found]))
        exact ⟨t, rfl, by simp [same, none, ht]⟩
    · rintro ⟨t, rfl, ht⟩
      rw [same] at ht
      cases found : read t with
      | none => exact .inr ⟨t, rfl, by simpa [found] using ht⟩
      | some w => exact .inl ⟨t, rfl, by simpa [found] using ht⟩
  · exact fun t goes => goes.elim id id

/-- The last alternative of a choice. -/
theorem reads_last {α : Type} {run : Run Token α} {L : Language Token α}
    {follow start : Token → Prop} (reads : Run.Reads run L follow bound)
    (starts : L.StartsIn start) : Run.Reads (Run.orElse run Run.never) L follow bound := by
  refine (reads.orElse (Run.reads_never bound) starts
    (fun _ _ => False.elim) (fun _ _ => id)).congr ?_ ?_
  · exact fun u v => or_iff_left id
  · exact fun t goes => goes.elim id False.elim

theorem reads_literal :
    Run.Reads (literal.run callRule) (item literal?) (fun _ => False) bound := by
  apply Run.Reads.within
  refine reads_either bound (Run.reads_satisfy _ bound)
    (reads_either bound (Run.reads_satisfy _ bound)
      (reads_last bound (Run.reads_satisfy _ bound) (startsIn_item _)) ?_ fun _ => rfl) ?_ ?_
  all_goals
    intro t
    cases t <;> simp [literal?]

theorem reads_key :
    Run.Reads ((Parser.choice [name, contents]).run callRule) (item key?) (fun _ => False)
      bound := by
  refine reads_either bound (reads_name callRule bound)
    (reads_last bound (Run.reads_satisfy _ bound) (startsIn_item _)) ?_ ?_
  all_goals
    intro t
    cases t <;> simp [name?, key?]

end

/-! ## The productions

What the rules read is given here. -/

section
variable {callRule : {α : Type} → Production α → Run Token α} {bound : Nat}

theorem reads_bracketed {α : Type} {inner : TokenParser α} {L : Language Token α}
    {follow : Token → Prop} (left right : Delimiter)
    (inside : Run.Reads (inner.run callRule) L follow (bound - 1))
    (apart : ¬ follow (.delimiter right)) :
    Run.Reads ((Parser.delimited (delimiter left) inner (delimiter right)).run callRule)
      (bracketed left L right) (fun _ => False) bound := by
  refine ((reads_delimiter callRule bound left).delimited inside
    (reads_delimiter callRule bound right) (startsIn_only _) (startsIn_only _) ?_).congr
    (bracketed_iff left L right) (fun _ => id)
  rintro t rfl
  exact apart

theorem reads_listed {phrase : Phrase} {parser : TokenParser phrase.Value} {start : Token → Prop}
    (left right : Delimiter)
    (items : Run.Reads (parser.run callRule) (Derives phrase) (goesOn Level.all) (bound - 1))
    (starts : StartsIn (Derives phrase) start) (notComma : ¬ goesOn Level.all comma)
    (apart : ¬ (goesOn Level.all (.delimiter right) ∨ start (.delimiter right) ∨
      Token.delimiter right = comma)) :
    Run.Reads ((listed left parser right).run callRule)
      (bracketed left (Derives (.list phrase)) right) (fun _ => False) bound := by
  have list := items.separated (reads_delimiter callRule (bound - 1) .comma) starts
    (startsIn_only _) (by rintro t rfl; exact notComma)
  exact reads_bracketed left right (list.congr (Derives.list_iff phrase) fun _ => id) apart

theorem not_goesOn_delimiter {levels : List Level} {symbol : Delimiter}
    (paren : symbol ≠ .openParen) (bracket : symbol ≠ .openBracket) :
    ¬ goesOn levels (.delimiter symbol) := by
  rintro (opens | starts | ⟨_, _, means⟩)
  · cases opens
    contradiction
  · cases symbol <;> contradiction
  · cases means

section
variable (expressions : Run.Reads ((Parser.call expression : TokenParser Expr).run callRule)
  (Derives .expression) (goesOn Level.all) (bound - 1))
include expressions

theorem reads_expressions (left right : Delimiter)
    (closes : right = .closeParen ∨ right = .closeBracket) :
    Run.Reads ((listed left (.call .expression) right).run callRule)
      (bracketed left (Derives (.list .expression)) right) (fun _ => False) bound := by
  refine reads_listed left right expressions startsIn_expression
    (not_goesOn_delimiter (by simp) (by simp)) ?_
  rintro (goes | starts | same)
  · revert goes
    apply not_goesOn_delimiter <;> rintro rfl <;> cases closes <;> contradiction
  · rcases closes with rfl | rfl <;> cases starts
  · cases same
    cases closes <;> contradiction

theorem reads_arguments :
    Run.Reads (arguments.run callRule) Derives.Arguments (fun _ => False) bound :=
  (reads_expressions expressions _ _ (.inl rfl)).within _

/-- A word in front of what may be arguments. -/
theorem reads_called : Run.Reads ((Parser.pair name (.optional arguments)).run callRule)
    (seq (item name?) (option Derives.Arguments)) opensCall bound := by
  have arguments := (reads_arguments expressions).optional startsIn_arguments
  refine ((reads_name callRule bound).pair_of_closed (arguments.mono (Nat.sub_le _ 1))
    (startsIn_item _)).congr (fun _ _ => .rfl) ?_
  exact fun t goes => goes.elim False.elim id

theorem reads_access : Run.Reads (access.run callRule) Derives.Access opensCall bound :=
  ((reads_meaning callRule bound _).pair_of_closed
    ((reads_called expressions).mono (Nat.sub_le _ 1)) (startsIn_item _)).map Derives.accessed

theorem reads_index : Run.Reads (index.run callRule) Derives.Index (fun _ => False) bound := by
  apply Run.Reads.within
  exact (reads_bracketed _ _ expressions (not_goesOn_delimiter (by simp) (by simp))).map _

theorem reads_link : Run.Reads ((Parser.choice [access, index]).run callRule) (Derives .link)
    opensCall bound := by
  have accesses := (startsIn_item (meaning? Operator.access?)).seq
    (seq (item name?) (option Derives.Arguments))
  have indices := startsIn_bracketed .openBracket (Derives .expression) .closeBracket
  refine ((reads_access expressions).orElse
    (reads_last bound (reads_index expressions) (indices.map _)) (accesses.map _) (indices.map _)
    ?_).congr Derives.link_iff ?_
  · rintro t means rfl
    cases means
  · exact fun t goes => goes.elim id False.elim

theorem reads_entry : Run.Reads (entry.run callRule) (Derives .entry) (goesOn Level.all)
    (bound - 1) := by
  have behind := (reads_delimiter callRule (bound - 1) .colon).pair_of_closed
    (expressions.mono (Nat.sub_le _ 1)) (startsIn_only _)
  have value := behind.map Prod.snd
  rw [← Run.preceded_eq_map_pair] at value
  exact ((reads_key callRule (bound - 1)).pair_of_closed (value.mono (Nat.sub_le _ 1))
    (startsIn_item _)).congr Derives.entry_iff fun _ => id

theorem reads_object : Run.Reads (object.run callRule) Derives.Object (fun _ => False) bound := by
  apply Run.Reads.within
  refine (reads_listed .openBrace .closeBrace (reads_entry expressions) startsIn_entry
    (not_goesOn_delimiter (by simp) (by simp)) ?_).map _
  rintro (goes | starts | same)
  · exact not_goesOn_delimiter (by simp) (by simp) goes
  · cases starts
  · cases same

theorem reads_primary :
    Run.Reads (primary.run callRule) (Derives .primary) opensCall bound := by
  have parentheses := reads_bracketed .openParen .closeParen expressions
    (not_goesOn_delimiter (by simp) (by simp))
  have arrays := ((reads_expressions expressions .openBracket _ (.inr rfl)).map Expr.array).within
    "array"
  have literals := (reads_literal callRule bound).map Expr.literal
  have names := (reads_called expressions).map Derives.named
  have startsArray := (startsIn_bracketed .openBracket (Derives (.list .expression))
    .closeBracket).map Expr.array
  have startsObject := (startsIn_bracketed .openBrace (Derives (.list .entry)) .closeBrace).map
    Expr.object
  have startsLiteral := (startsIn_item literal?).map Expr.literal
  have startsNamed := ((startsIn_item name?).seq (option Derives.Arguments)).map Derives.named
  -- The alternatives from the last one up, each with what the later ones may start with.
  have startsThird := startsLiteral.union startsNamed
  have startsSecond := startsObject.union startsThird
  have startsFirst := startsArray.union startsSecond
  have fourth := literals.orElse (reads_last bound names startsNamed) startsLiteral startsNamed
    (by intro t; cases t <;> simp [literal?, name?])
  have third := (reads_object expressions).orElse fourth startsObject startsThird
    (by rintro t rfl; simp [literal?, name?])
  have second := arrays.orElse third startsArray startsSecond
    (by rintro t rfl; simp [literal?, name?])
  have first := parentheses.orElse second (startsIn_bracketed _ _ _) startsFirst
    (by rintro t rfl; simp [literal?, name?])
  apply Run.Reads.within
  refine first.congr Derives.primary_iff ?_
  intro t goes
  simpa using goes

theorem reads_postfixed :
    Run.Reads (postfixed.run callRule) (Derives .postfixed) (goesOn []) bound := by
  have links := (reads_link expressions).many startsIn_link not_opensCall_of_startsLink
  apply Run.Reads.within
  refine (((reads_primary expressions).pair links (fun _ _ _ => Nat.le_add_right _ _) ?_
    (fun _ => id) (fun _ _ _ => .inl)).map _).congr Derives.postfixed_iff ?_
  · intro u links words t mem
    exact not_opensCall_of_startsLink t (words.starts startsIn_link t mem)
  · exact fun t goes => goes.elim .inl fun starts => .inr (.inl starts)

theorem reads_unary (operands : Run.Reads ((Parser.call unary : TokenParser Expr).run callRule)
    (Derives .unary) (goesOn []) (bound - 1)) :
    Run.Reads (unaryBody.run callRule) (Derives .unary) (goesOn []) bound := by
  have applied := ((reads_meaning callRule bound Operator.unary?).pair_of_closed operands
    (startsIn_item _)).map fun p => Expr.unary p.1 p.2
  have startsApplied := ((startsIn_item (meaning? Operator.unary?)).seq (Derives .unary)).map
    fun p => Expr.unary p.1 p.2
  apply Run.Reads.within
  refine (applied.orElse (reads_last bound (reads_postfixed expressions) startsIn_postfixed)
    startsApplied startsIn_postfixed ?_).congr Derives.unary_iff ?_
  · intro t
    cases t <;> simp [meaning?, startsPrimary]
  · exact fun t goes => goes.elim id id

end

/-! ### Levels of operators -/

theorem goesOn_cons {level : Level} {levels : List Level} {t : Token} :
    goesOn (level :: levels) t ↔
      goesOn levels t ∨ (meaning? (Operator.binaryAt? level) t).isSome = true := by
  simp [goesOn]
  grind

/-- An operator of a level does not go on with operands of other levels. -/
theorem not_goesOn_operator {level : Level} {levels : List Level} (other : level ∉ levels)
    (t : Token) (means : (meaning? (Operator.binaryAt? level) t).isSome = true) :
    ¬ goesOn levels t := by
  obtain ⟨op, means⟩ := Option.isSome_iff_exists.mp means
  cases t <;> simp only [meaning?, reduceCtorEq] at means
  obtain ⟨rfl, rfl⟩ := Derives.binaryAt?_iff.mp means
  rintro (opens | starts | ⟨level, mem, means'⟩)
  · cases opens
  · cases op <;> cases starts
  · obtain ⟨op', means'⟩ := Option.isSome_iff_exists.mp means'
    obtain ⟨same, rfl⟩ := Derives.binaryAt?_iff.mp means'
    have : op' = op := by cases op <;> cases op' <;> first | rfl | cases same
    exact other (this ▸ mem)

theorem reads_level {level : Level} {levels : List Level} {operand : TokenParser Expr}
    (other : level ∉ levels)
    (operands : Run.Reads (operand.run callRule) (Derives (.binary levels)) (goesOn levels) bound) :
    Run.Reads ((levelOf level operand).run callRule) (Derives (.binary (level :: levels)))
      (goesOn (level :: levels)) bound := by
  have starts :=
    (startsIn_item (meaning? (Operator.binaryAt? level))).seq (Derives (.binary levels))
  have joined := (reads_meaning callRule bound (Operator.binaryAt? level)).pair_of_closed
    (operands.mono (Nat.sub_le _ 1)) (startsIn_item _)
  have rest := joined.many starts (not_goesOn_operator other)
  apply Run.Reads.within
  refine ((operands.pair rest (fun _ _ _ => Nat.le_add_right _ _) ?_
    (fun _ => goesOn_cons.mpr) (fun _ _ _ goes => goesOn_cons.mpr (.inl goes))).map _).congr
    (Derives.binary_iff level levels) (fun _ => id)
  exact fun u vs words t mem => not_goesOn_operator other t (words.starts starts t mem)

theorem reads_levels {levels : List Level} (distinct : levels.Nodup)
    (operands : Run.Reads ((Parser.call unary : TokenParser Expr).run callRule) (Derives .unary)
      (goesOn []) bound) :
    Run.Reads ((levels.foldr levelOf (.call unary)).run callRule) (Derives (.binary levels))
      (goesOn levels) bound := by
  induction levels with
  | nil => exact operands.congr Derives.operand_iff (fun _ => id)
  | cons level levels ih =>
      obtain ⟨other, distinct⟩ := List.nodup_cons.mp distinct
      exact reads_level other (ih distinct)

theorem reads_expression
    (operands : Run.Reads ((Parser.call unary : TokenParser Expr).run callRule) (Derives .unary)
      (goesOn []) bound) :
    Run.Reads (expressionBody.run callRule) (Derives .expression) (goesOn Level.all) bound :=
  ((reads_levels (by decide) operands).congr Derives.expression_iff (fun _ => id)).within _

end

end Production

/-! ## The grammar -/

namespace Expr

/-- The run of a production whose calls nest at most `depth` deep. -/
def callWithin (depth : Nat) {α : Type} (rule : Production α) : Run Token α :=
  grammar.runWithin depth (.call rule)

theorem callWithin_succ (depth : Nat) {α : Type} (rule : Production α) :
    callWithin (depth + 1) rule = (grammar.body rule).run (callWithin depth) :=
  Grammar.runWithin_eq grammar depth _

/-- Two calls for each token are deep enough, and one less for a unary expression. -/
theorem reads_within (depth bound : Nat) :
    (2 * bound ≤ depth → Run.Reads (callWithin depth .expression) (Derives .expression)
      (goesOn Level.all) bound) ∧
    (2 * bound ≤ depth + 1 → Run.Reads (callWithin depth .unary) (Derives .unary)
      (goesOn []) bound) := by
  induction depth generalizing bound with
  | zero =>
      constructor
      all_goals
        intro enough c short
        omega
  | succ depth ih =>
      constructor
      · intro enough
        rw [callWithin_succ]
        exact Production.reads_expression ((ih bound).2 enough)
      · intro enough
        rw [callWithin_succ]
        exact Production.reads_unary ((ih (bound - 1)).1 (by omega)) ((ih (bound - 1)).2 (by omega))

theorem reads_parse (tokens : List Token) (start : Nat) :
    Run.ReadsAt (fun _ => Expr.parse tokens start) (Derives .expression) (goesOn Level.all)
      (.behind tokens start) := by
  have reads := (reads_within (2 * ((tokens.drop start).length + 1))
    ((tokens.drop start).length + 1)).1 (Nat.le_refl _)
  exact (reads (.behind tokens start) (Nat.lt_succ_self _)).of_eq rfl

theorem parse_ne_endless (tokens : List Token) (start : Nat) :
    Expr.parse tokens start ≠ .endless :=
  (reads_parse tokens start).ends

/-- Tokens are an expression in one way at most. -/
theorem derives_unique {u : List Token} {e f : Expr} (first : Derives .expression u e)
    (second : Derives .expression u f) : e = f :=
  (reads_parse u 0).unique first second

theorem parse_success_iff (tokens : List Token) (start : Nat) (e : Expr) (next : Cursor Token) :
    Expr.parse tokens start = .success e next ↔
      ∃ u rest, tokens.drop start = u ++ rest ∧ next = ⟨start + u.length, rest⟩ ∧
        Derives .expression u e ∧
        ∀ u' rest' e', tokens.drop start = u' ++ rest' → Derives .expression u' e' →
          u'.length ≤ u.length :=
  (reads_parse tokens start).success_iff (fun _ _ _ => derives_unique) e next

theorem parse_failure_iff (tokens : List Token) (start : Nat) :
    (∃ error, Expr.parse tokens start = .failure error) ↔
      ∀ u rest e, tokens.drop start = u ++ rest → ¬ Derives .expression u e :=
  (reads_parse tokens start).failure_iff

/-- Where all the tokens are an expression, the parser reads them all. -/
theorem parse_whole {u : List Token} {e : Expr} (word : Derives .expression u e) :
    Expr.parse u 0 = .success e ⟨u.length, []⟩ := by
  refine (parse_success_iff u 0 e _).mpr ⟨u, [], by simp, by simp, word, ?_⟩
  intro u' rest' e' eq _
  have same := congrArg List.length eq
  simp only [List.drop_zero, List.length_append] at same
  omega

/-- The significant tokens of a text. -/
def significantTokens (spans : List Span) : List Token := (Span.significant spans).map (·.token)

theorem significantOfText_ok_iff (cs : List Char) (spans : List Span) :
    Span.significantOfText cs = .ok spans ↔
      ∃ all, Token.ofText cs = .ok all ∧ spans = Span.significant all ∧ spans ≠ [] ∧
        Limits.excess? (spans.map (·.token)) = none := by
  unfold Span.significantOfText
  cases scanned : Token.ofText cs with
  | error e => simp
  | ok all =>
      simp only [List.isEmpty_iff]
      split
      · simp_all
      · cases excess : Limits.excess? ((Span.significant all).map (·.token)) with
        | none => simp_all; grind
        | some broken => cases broken <;> simp_all

theorem ofText_ok_iff (cs : List Char) (e : Expr) :
    Expr.ofText cs = .ok e ↔
      ∃ all, Token.ofText cs = .ok all ∧ Limits.excess? (significantTokens all) = none ∧
        Derives .expression (significantTokens all) e := by
  constructor
  · intro answer
    unfold Expr.ofText at answer
    cases found : Span.significantOfText cs with
    | error e => simp [found] at answer
    | ok spans =>
        obtain ⟨all, scanned, rfl, -, bounded⟩ := (significantOfText_ok_iff cs spans).mp found
        refine ⟨all, scanned, bounded, ?_⟩
        rw [found] at answer
        cases outcome : Expr.parse (significantTokens all) 0 with
        | success f next =>
            obtain ⟨u, rest, eq, rfl, word, -⟩ := (parse_success_iff _ 0 f next).mp outcome
            simp only [significantTokens, List.drop_zero] at outcome eq
            simp only [outcome] at answer
            cases behind : (Span.significant all)[u.length]? with
            | some span => simp [behind] at answer
            | none =>
                -- No span stands behind the expression, so it takes all the tokens.
                have short := List.getElem?_eq_none_iff.mp behind
                have same := congrArg List.length eq
                simp only [List.length_map, List.length_append] at same
                obtain rfl : rest = [] := List.eq_nil_of_length_eq_zero (by omega)
                simp only [Nat.zero_add, behind, Except.ok.injEq] at answer
                rw [significantTokens, eq, List.append_nil, ← answer]
                exact word
        | failure error =>
            simp only [significantTokens] at outcome
            simp [outcome] at answer
        | endless => exact absurd outcome (parse_ne_endless _ 0)
  · rintro ⟨all, scanned, bounded, word⟩
    have nonempty : Span.significant all ≠ [] := by
      intro none
      obtain ⟨t, w, eq, -⟩ := startsIn_expression _ _ word
      simp [significantTokens, none] at eq
    have found := (significantOfText_ok_iff cs _).mpr ⟨all, scanned, rfl, nonempty, bounded⟩
    have outcome := parse_whole word
    simp only [significantTokens, List.length_map] at outcome
    simp [Expr.ofText, found, outcome]

/-- The parser reads the longest expression, and fails where there is none.  The grammar is
unambiguous.  So a text is an expression where all its significant tokens together are one. -/
theorem parser_agrees_with_grammar :
    (∀ (tokens : List Token) (start : Nat) (e : Expr) (next : Cursor Token),
      Expr.parse tokens start = .success e next ↔
        ∃ u rest, tokens.drop start = u ++ rest ∧ next = ⟨start + u.length, rest⟩ ∧
          Derives .expression u e ∧
          ∀ u' rest' e', tokens.drop start = u' ++ rest' → Derives .expression u' e' →
            u'.length ≤ u.length) ∧
    (∀ (tokens : List Token) (start : Nat),
      (∃ error, Expr.parse tokens start = .failure error) ↔
        ∀ u rest e, tokens.drop start = u ++ rest → ¬ Derives .expression u e) ∧
    (∀ (tokens : List Token) (start : Nat), Expr.parse tokens start ≠ .endless) ∧
    (∀ (u : List Token) (e f : Expr),
      Derives .expression u e → Derives .expression u f → e = f) ∧
    (∀ (cs : List Char) (e : Expr), Expr.ofText cs = .ok e ↔
      ∃ all, Token.ofText cs = .ok all ∧ Limits.excess? (significantTokens all) = none ∧
        Derives .expression (significantTokens all) e) :=
  ⟨parse_success_iff, parse_failure_iff, parse_ne_endless, fun _ _ _ => derives_unique,
    ofText_ok_iff⟩

end Expr

end Trigger
