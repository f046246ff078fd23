import Trigger.Proofs.Token.Spelling

/-!
# Separators do not matter

A separator is a run of blanks, ends of lines and comments.  The tokens of a text may be taken out
of it and be put down again with other separators around them: `separators_insignificant` says that
the new text has the same significant tokens, and that it is the same expression or fails for the
same reason.

Only the place of a failure changes (`ParseFailure.unplaced`).  A separator that follows a token
starts with a blank or the end of a line, since a comment right behind a division would be read
otherwise.
-/

namespace Trigger

open Lexeme

/-! ## Separators -/

/-- Blanks, ends of lines and comments. -/
inductive Separator : List Char → Prop
  | nil : Separator []
  | space {w : List Char} : Separator w → Separator (' ' :: w)
  | tab {w : List Char} : Separator w → Separator ('\t' :: w)
  | lineBreak {ending w : List Char} :
      ending = ['\n'] ∨ ending = ['\r', '\n'] → Separator w → Separator (ending ++ w)
  | blockComment {contents w : List Char} :
      ¬ ['*', '/'] <:+: contents → Separator w →
      Separator (['/', '*'] ++ contents ++ ['*', '/'] ++ w)
  /-- The end of the line closes the comment. -/
  | lineComment {contents ending w : List Char} :
      (∀ c ∈ contents, c ≠ '\n' ∧ c ≠ '\r') → ending = ['\n'] ∨ ending = ['\r', '\n'] →
      Separator w → Separator (['/', '/'] ++ contents ++ ending ++ w)

/-- The text starts with a blank or the end of a line, if it starts. -/
def StartsBlank (w : List Char) : Prop := ∀ c ∈ w.head?, c ∈ [' ', '\t', '\n', '\r']

namespace Scans

variable {cs source rest : List Char} {token : Token} {ts : List Token}

theorem skipped_inv (scans : Scans cs ts) (found : first? cs = some ⟨token, source, rest⟩)
    (insignificant : token.isSignificant = false) : Scans rest ts := by
  cases scans with
  | nil => cases found
  | seen found' significant _ =>
      cases found.symm.trans found'
      rw [insignificant] at significant
      cases significant
  | skipped found' _ behind =>
      cases found.symm.trans found'
      exact behind

end Scans

theorem first?_gap {c : Char} (gap : isGap c = true) (cs : List Char) :
    first? (c :: cs) = some ⟨.blanks (String.ofList (c :: cs.takeWhile isGap)),
      c :: cs.takeWhile isGap, cs.dropWhile isGap⟩ := by
  have found : blanks? (c :: cs) = some ⟨.blanks (String.ofList (c :: cs.takeWhile isGap)),
      c :: cs.takeWhile isGap, cs.dropWhile isGap⟩ := by
    simp [blanks?, gap]
  simp only [first?, rules, List.findSome?_cons, found]

namespace Scans

variable {cs : List Char} {ts : List Token}

theorem dropGaps (scans : Scans cs ts) : Scans (cs.dropWhile isGap) ts := by
  cases cs with
  | nil => exact scans
  | cons c cs =>
      cases gap : isGap c with
      | false => rwa [List.dropWhile_cons_of_neg (by simp [gap])]
      | true =>
          rw [List.dropWhile_cons_of_pos gap]
          exact scans.skipped_inv (first?_gap gap cs) rfl

/-- A gap in front of a text goes to the gaps that the text starts with. -/
theorem gap {c : Char} (isGap : isGap c = true) (scans : Scans cs ts) : Scans (c :: cs) ts :=
  .skipped (first?_gap isGap cs) rfl scans.dropGaps

theorem lineBreak {ending : List Char} (ends : ending = ['\n'] ∨ ending = ['\r', '\n'])
    (scans : Scans cs ts) : Scans (ending ++ cs) ts := by
  rcases ends with rfl | rfl
  · exact .skipped (@Token.Spelled.first? _ _ cs .lineFeed trivial) rfl scans
  · exact .skipped (@Token.Spelled.first? _ _ cs .carriageReturn trivial) rfl scans

/-- A separator in front of a text is skipped. -/
theorem separator {w : List Char} (separator : Separator w) (scans : Scans cs ts) :
    Scans (w ++ cs) ts := by
  induction separator with
  | nil => exact scans
  | space _ ih | tab _ ih => exact gap rfl ih
  | lineBreak ends _ ih =>
      rw [List.append_assoc]
      exact lineBreak ends ih
  | @blockComment contents w apart _ ih =>
      rw [List.append_assoc]
      exact .skipped ((Token.Spelled.blockComment apart).first? trivial) rfl ih
  | @lineComment contents ending w inside ends _ ih =>
      have all : contents.all (!endsLine ·) = true := by
        simpa [endsLine] using inside
      have stops : atLineEnd (ending ++ (w ++ cs)) = true := by
        rcases ends with rfl | rfl <;> rfl
      rw [List.append_assoc, List.append_assoc]
      exact .skipped ((Token.Spelled.lineComment all).first? stops) rfl (lineBreak ends ih)

end Scans

/-! ## Tokens in front of separators -/

theorem Token.stops_of_startsBlank {token : Token} (significant : token.isSignificant = true)
    {tail : List Char} (blank : StartsBlank tail) : token.Stops tail := by
  have blanks : ∀ c ∈ tail.head?, Text.isBlank c = true := by
    intro c mem
    have all : [' ', '\t', '\n', '\r'].all Text.isBlank = true := by decide
    exact List.all_eq_true.mp all c (blank c mem)
  cases token with
  | keyword word | name word => exact fun c mem => (of_isBlank (blanks c mem)).2.1
  | operator symbol =>
      intro c mem
      simpa [Token.endsAt] using (Token.operator symbol).endsAt_of_isBlank (blanks c mem)
  | number value =>
      refine ⟨fun c mem => (of_isBlank (blanks c mem)).2.2.1, ?_⟩
      cases tail with
      | nil => rfl
      | cons c tail => exact fraction?_of_ne tail (of_isBlank (blanks c rfl)).2.2.2.1
  | delimiter symbol | string contents => trivial
  | _ => cases significant

/-- Tokens scan as before with separators behind them. -/
theorem scans_zipWith {spans : List Span} {gaps : List (List Char)}
    (spelled : ∀ span ∈ spans, span.token.Spelled span.source)
    (significant : ∀ span ∈ spans, span.token.isSignificant = true)
    (separators : ∀ w ∈ gaps, Separator w ∧ StartsBlank w) (between : ∀ w ∈ gaps.dropLast, w ≠ [])
    (each : gaps.length = spans.length) :
    Scans (List.zipWith (· ++ ·) (spans.map (·.source)) gaps).flatten (spans.map (·.token)) := by
  induction spans generalizing gaps with
  | nil => exact .nil
  | cons span spans ih =>
      cases gaps with
      | nil => cases each
      | cons w gaps =>
          obtain ⟨spelled, laterSpelled⟩ := List.forall_mem_cons.mp spelled
          obtain ⟨seen, laterSeen⟩ := List.forall_mem_cons.mp significant
          obtain ⟨⟨separator, blank⟩, later⟩ := List.forall_mem_cons.mp separators
          have each : gaps.length = spans.length := Nat.succ.inj each
          have between' : ∀ v ∈ gaps.dropLast, v ≠ [] := by
            intro v mem
            cases gaps with
            | nil => cases mem
            | cons u gaps => exact between v (List.mem_cons_of_mem w mem)
          have behind := ih laterSpelled laterSeen later between' each
          have stops : StartsBlank
              (w ++ (List.zipWith (· ++ ·) (spans.map (·.source)) gaps).flatten) := by
            cases w with
            | cons c w => exact blank
            | nil =>
                -- An empty separator is the last one, so nothing stands behind it.
                cases gaps with
                | nil => simp [StartsBlank]
                | cons v gaps => exact absurd rfl (between [] (by simp))
          have found := spelled.first? (Token.stops_of_startsBlank seen stops)
          simp only [List.map_cons, List.zipWith_cons_cons, List.flatten_cons, List.append_assoc]
          exact .seen found seen (behind.separator separator)

/-! ## Failures without their places -/

/-- The failure, at no place in particular. -/
def ParseFailure.unplaced : ParseFailure → ParseFailure
  | scan error => scan { error with position := .start }
  | empty => empty
  | tooDeep _ => tooDeep 0
  | tooManyOperators _ => tooManyOperators 0
  | syntactic error => syntactic error
  | trailing _ token => trailing 0 token

namespace Expr

/-- The expression that significant tokens form, or why they form none, at no place in
particular. -/
def ofTokens (tokens : List Token) : Except ParseFailure Expr :=
  if tokens.isEmpty then .error .empty
  else
    match Limits.excess? tokens with
    | some (.nesting _) => .error (.tooDeep 0)
    | some (.operators _) => .error (.tooManyOperators 0)
    | none =>
      match Expr.parse tokens 0 with
      | .success expr next =>
        match tokens[next.position]? with
        | some token => .error (.trailing 0 token)
        | none => .ok expr
      | .failure error => .error (.syntactic error)
      | .endless => .error (.syntactic .noAlternative)

/-- Of a text that is scanned, the outcome depends on the significant tokens only. -/
theorem unplaced_ofText {cs : List Char} {all : List Span} (scanned : Token.ofText cs = .ok all) :
    (Expr.ofText cs).mapError ParseFailure.unplaced = ofTokens (significantTokens all) := by
  unfold Expr.ofText Span.significantOfText ofTokens significantTokens
  simp only [scanned, List.isEmpty_map]
  generalize Span.significant all = spans
  cases none : spans.isEmpty with
  | true => rfl
  | false =>
      simp only [Bool.false_eq_true, if_false]
      cases excess : Limits.excess? (spans.map (·.token)) with
      | some broken => cases broken <;> rfl
      | none =>
          simp only
          cases Expr.parse (spans.map (·.token)) 0 with
          | failure error => rfl
          | endless => rfl
          | success expr next =>
              simp only [List.getElem?_map]
              cases spans[next.position]? <;> rfl

/-- Separators around the tokens of a text may be put and changed freely, as long as there is one
between any two tokens and none starts with a comment behind a token: the significant tokens stay
the same, and so does the expression, or the reason why there is none. -/
theorem separators_insignificant {cs : List Char} {all : List Span}
    (scanned : Token.ofText cs = .ok all) {front : List Char} {gaps : List (List Char)}
    (first : Separator front) (separators : ∀ w ∈ gaps, Separator w ∧ StartsBlank w)
    (between : ∀ w ∈ gaps.dropLast, w ≠ [])
    (each : gaps.length = (Span.significant all).length) :
    let spread := front ++
      (List.zipWith (· ++ ·) ((Span.significant all).map (·.source)) gaps).flatten
    (∃ all', Token.ofText spread = .ok all' ∧ significantTokens all' = significantTokens all) ∧
      (Expr.ofText spread).mapError ParseFailure.unplaced =
        (Expr.ofText cs).mapError ParseFailure.unplaced := by
  intro spread
  have spelled : ∀ span ∈ Span.significant all, span.token.Spelled span.source :=
    fun span mem => spelled_of_scanWithin scanned span (List.mem_filter.mp mem).1
  have seen : ∀ span ∈ Span.significant all, span.token.isSignificant = true :=
    fun span mem => (List.mem_filter.mp mem).2
  have scans : Scans spread (significantTokens all) :=
    (scans_zipWith spelled seen separators between each).separator first
  obtain ⟨all', scanned', same⟩ := scans_iff.mp scans
  refine ⟨⟨all', scanned', same⟩, ?_⟩
  rw [unplaced_ofText scanned, unplaced_ofText scanned', same]

/-- The tokens of the member of a number, where nothing stands between them. -/
def memberSpans : List Span :=
  [⟨.number (Number.ofFixed ['1'] [] 0), ['1'], ⟨0, 1, 1⟩⟩, ⟨.operator .dot, ['.'], ⟨1, 1, 2⟩⟩,
    ⟨.name "x", ['x'], ⟨2, 1, 3⟩⟩]

theorem separators_insignificant_member :
    let spread := "/*1*/1 .\n//2\r\n\tx".toList
    Token.ofText "1.x".toList = .ok memberSpans ∧
      (∃ all', Token.ofText spread = .ok all' ∧
        significantTokens all' = significantTokens memberSpans) ∧
      (Expr.ofText spread).mapError ParseFailure.unplaced =
        (Expr.ofText "1.x".toList).mapError ParseFailure.unplaced := by
  have scanned : Token.ofText "1.x".toList = .ok memberSpans := rfl
  have first : Separator "/*1*/".toList := @Separator.blockComment ['1'] [] (by decide) .nil
  have second : Separator "\n//2\r\n\t".toList :=
    .lineBreak (.inl rfl) (@Separator.lineComment ['2'] _ _ (by simp) (.inr rfl) (.tab .nil))
  have separators : ∀ w ∈ [[' '], "\n//2\r\n\t".toList, []], Separator w ∧ StartsBlank w := by
    simp only [List.forall_mem_cons]
    exact ⟨⟨.space .nil, by simp [StartsBlank]⟩, ⟨second, by simp [StartsBlank]⟩,
      ⟨.nil, by simp [StartsBlank]⟩, nofun⟩
  exact ⟨scanned, separators_insignificant scanned first separators (by decide) rfl⟩

end Expr

end Trigger
