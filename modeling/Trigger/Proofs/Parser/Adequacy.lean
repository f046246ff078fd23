import Mathlib.Order.Filter.AtTopBot.Basic
import Trigger.Proofs.Parser.Ending
import Trigger.Proofs.Parser.Reading

/-!
# Runs come to the endings of their parsers

The endings of a parser are the outcomes of those of its runs that are not endless (`ends_iff`).

*Sound.*  The bounds of a run only ever make it endless, so any other outcome is an ending
(`sound_runWithin`).

*Complete.*  Both bounds suffice.  The rounds of a repetition are as many as the items that are
left, and rounds that are left over change nothing.  The calls nest to some depth, and every greater
depth does as well (`eventually_runWithin`).

So a parser ends in one way at most (`Ends.unique`).
-/

namespace Trigger

/-! ## Steps of runs -/

namespace Cursor

variable {τ : Type} {input : List τ} {item : τ} {p : Nat}

theorem behind_of_some (found : input[p]? = some item) :
    behind input p = ⟨p, item :: input.drop (p + 1)⟩ := by
  obtain ⟨short, rfl⟩ := List.getElem?_eq_some_iff.mp found
  rw [behind, List.drop_eq_getElem_cons short]

theorem behind_of_none (missing : input[p]? = none) : behind input p = ⟨p, []⟩ := by
  rw [behind, List.drop_eq_nil_of_le (List.getElem?_eq_none_iff.mp missing)]

end Cursor

theorem Outcome.map_eq_success_iff {τ α β : Type} {f : α → β} {outcome : Outcome τ α} {value : β}
    {next : Cursor τ} :
    outcome.map f = .success value next ↔ ∃ a, outcome = .success a next ∧ f a = value := by
  cases outcome <;> simp [Outcome.map, and_comm, eq_comm]

namespace Run

variable {τ α β : Type} {c next : Cursor τ}

theorem pair_of_success {first : Run τ α} {a : α} (read : first c = .success a next)
    (second : Run τ β) : pair first second c = (second next).map fun b => (a, b) := by
  rw [pair, read]
  rfl

theorem pair_of_failure {first : Run τ α} {e : ParseError} (fails : first c = .failure e)
    (second : Run τ β) : pair first second c = .failure e := by
  rw [pair, fails]
  rfl

/-- A further round that reads something. -/
theorem manyWithin_of_lt {item : Run τ α} {value : α} (read : item c = .success value next)
    (further : c.position < next.position) (rounds : Nat) :
    manyWithin item (rounds + 1) c = (manyWithin item rounds next).map (value :: ·) := by
  rw [manyWithin, read]
  exact if_pos further

/-- A round that reads nothing is the last one. -/
theorem manyWithin_of_not_lt {item : Run τ α} {value : α} (read : item c = .success value next)
    (idle : ¬ c.position < next.position) (rounds : Nat) :
    manyWithin item (rounds + 1) c = .success [] c := by
  rw [manyWithin, read]
  exact if_neg idle

theorem manyWithin_of_failure {item : Run τ α} {e : ParseError} (fails : item c = .failure e)
    (rounds : Nat) : manyWithin item (rounds + 1) c = .success [] c := by
  rw [manyWithin, fails]

/-- One more round changes nothing where the rounds were enough. -/
theorem manyWithin_succ {item : Run τ α} {values : List α} {rounds : Nat}
    (read : manyWithin item rounds c = .success values next) :
    manyWithin item (rounds + 1) c = .success values next := by
  fun_induction manyWithin item rounds c generalizing values with
  | case1 | case5 => cases read
  | case2 rounds c value behind first further ih =>
      obtain ⟨rest, more, rfl⟩ := Outcome.map_eq_success_iff.mp read
      rw [manyWithin_of_lt first further]
      exact Outcome.map_eq_success_iff.mpr ⟨rest, ih more, rfl⟩
  | case3 rounds c value behind first idle =>
      exact (manyWithin_of_not_lt first idle _).trans read
  | case4 rounds c e fails => exact (manyWithin_of_failure fails _).trans read

theorem manyWithin_mono {item : Run τ α} {values : List α} {rounds rounds' : Nat}
    (read : manyWithin item rounds c = .success values next) (le : rounds ≤ rounds') :
    manyWithin item rounds' c = .success values next := by
  induction le with
  | refl => exact read
  | step _ ih => exact manyWithin_succ ih

section
variable {item : Run τ α} {separator : Run τ β} {mark : β} {value : α} {behind : Cursor τ}
  {e : ParseError}

theorem separatedWithin_of_failure (fails : separator c = .failure e) (rounds : Nat) :
    separatedWithin item separator (rounds + 1) c = .success [] c := by
  rw [separatedWithin, fails]

theorem separatedWithin_of_trailing (marked : separator c = .success mark behind)
    (fails : item behind = .failure e) (rounds : Nat) :
    separatedWithin item separator (rounds + 1) c = .success [] behind := by
  simp only [separatedWithin, marked, fails]

theorem separatedWithin_of_lt (marked : separator c = .success mark behind)
    (read : item behind = .success value next) (further : c.position < next.position) (rounds : Nat)
      :
    separatedWithin item separator (rounds + 1) c =
      (separatedWithin item separator rounds next).map (value :: ·) := by
  simp only [separatedWithin, marked, read, further, if_true]

/-- A round that reads nothing goes on forever. -/
theorem separatedWithin_of_not_lt (marked : separator c = .success mark behind)
    (read : item behind = .success value next) (idle : ¬ c.position < next.position) (rounds : Nat)
      :
    separatedWithin item separator rounds c = .endless := by
  cases rounds with
  | zero => rfl
  | succ rounds => simp only [separatedWithin, marked, read, idle, if_false]

theorem separated_of_success (read : item c = .success value next) (separator : Run τ β) :
    separated item separator c =
      (separatedWithin item separator (next.rest.length + 1) next).map (value :: ·) := by
  rw [separated, read]

theorem separated_of_failure (fails : item c = .failure e) (separator : Run τ β) :
    separated item separator c = .success [] c := by
  rw [separated, fails]

theorem separatedWithin_succ {values : List α} {rounds : Nat}
    (read : separatedWithin item separator rounds c = .success values next) :
    separatedWithin item separator (rounds + 1) c = .success values next := by
  fun_induction separatedWithin item separator rounds c generalizing values with
  | case1 | case3 | case5 | case7 => cases read
  | case2 rounds c mark behind marked value next' first further ih =>
      obtain ⟨rest, more, rfl⟩ := Outcome.map_eq_success_iff.mp read
      rw [separatedWithin_of_lt marked first further]
      exact Outcome.map_eq_success_iff.mpr ⟨rest, ih more, rfl⟩
  | case4 rounds c mark behind marked e fails =>
      exact (separatedWithin_of_trailing marked fails _).trans read
  | case6 rounds c e fails => exact (separatedWithin_of_failure fails _).trans read

theorem separatedWithin_mono {values : List α} {rounds rounds' : Nat}
    (read : separatedWithin item separator rounds c = .success values next) (le : rounds ≤ rounds')
      :
    separatedWithin item separator rounds' c = .success values next := by
  induction le with
  | refl => exact read
  | step _ ih => exact separatedWithin_succ ih

end

/-- A repetition goes on behind a round that reads something. -/
theorem many_of_lt {item : Run τ α} {input : List τ} {value : α} {values : List α} {p q : Nat}
    {next : Cursor τ} (further : p < q) (bound : q ≤ max p input.length)
    (read : item (.behind input p) = .success value (.behind input q))
    (more : many item (.behind input q) = .success values next) :
    many item (.behind input p) = .success (value :: values) next := by
  have fewer : (Cursor.behind input q).rest.length + 1 ≤ (Cursor.behind input p).rest.length := by
    simp only [Cursor.behind, List.length_drop]
    omega
  rw [many, manyWithin_of_lt read further]
  exact Outcome.map_eq_success_iff.mpr ⟨values, manyWithin_mono more fewer, rfl⟩

end Run

namespace Grammar

variable {τ α β γ : Type} [Written τ] {g : Grammar τ} {input : List τ}

/-! ## Runs are sound -/

/-- Where the run comes to an outcome, it is an ending of the parser. -/
def Sound (g : Grammar τ) (input : List τ) (run : Run τ α) (parser : Parser τ g.Rule α) : Prop :=
  ∀ p, run (.behind input p) = .endless ∨
    ∃ ending, run (.behind input p) = ending.outcome input ∧ g.Ends input parser p ending

theorem Sound.cases {run : Run τ α} {parser : Parser τ g.Rule α} (sound : Sound g input run parser)
    (p : Nat) :
    run (.behind input p) = .endless ∨
    (∃ value q, run (.behind input p) = .success value (.behind input q) ∧
      g.Ends input parser p (.success value q)) ∨
    ∃ e, run (.behind input p) = .failure e ∧ g.Ends input parser p (.failure e) := by
  rcases sound p with stuck | ⟨ending, same, ends⟩
  · exact .inl stuck
  · cases ending with
    | success value q => exact .inr (.inl ⟨value, q, same, ends⟩)
    | failure e => exact .inr (.inr ⟨e, same, ends⟩)

theorem sound_equal [DecidableEq τ] (value : τ) :
    Sound g input (Run.equal value) (.equal value) := by
  intro p
  refine .inr ?_
  cases found : input[p]? with
  | none =>
      refine ⟨_, ?_, .equalBehind found⟩
      rw [Cursor.behind_of_none found]
      rfl
  | some item =>
      rw [Cursor.behind_of_some found]
      by_cases same : item = value
      · subst same
        exact ⟨_, by simp [Run.equal, Ending.outcome, Cursor.behind], .equal found⟩
      · exact ⟨_, by simp [Run.equal, Ending.outcome, same], .other found same⟩

theorem sound_satisfy (read : τ → Option α) : Sound g input (Run.satisfy read) (.satisfy read) := by
  intro p
  refine .inr ?_
  cases found : input[p]? with
  | none =>
      refine ⟨_, ?_, .satisfyBehind found⟩
      rw [Cursor.behind_of_none found]
      rfl
  | some item =>
      rw [Cursor.behind_of_some found]
      cases means : read item with
      | none => exact ⟨_, by simp [Run.satisfy, Ending.outcome, means], .unsatisfied found means⟩
      | some value =>
          exact ⟨_, by simp [Run.satisfy, Ending.outcome, Cursor.behind, means],
            .satisfied found means⟩

theorem Sound.orElse {first second : Run τ α} {left right : Parser τ g.Rule α}
    (soundL : Sound g input first left) (soundR : Sound g input second right) :
    Sound g input (Run.orElse first second) (.orElse left right) := by
  intro p
  rcases soundL.cases p with stuck | ⟨value, q, read, ends⟩ | ⟨e, fails, ends⟩
  · exact .inl (by rw [Run.orElse, stuck])
  · exact .inr ⟨_, by rw [Run.orElse, read]; rfl, .first ends⟩
  · have gives : Run.orElse first second (.behind input p) = second (.behind input p) := by
      rw [Run.orElse, fails]
    rw [gives]
    rcases soundR p with stuck | ⟨ending, same, ends'⟩
    · exact .inl stuck
    · exact .inr ⟨ending, same, .second ends ends'⟩

theorem Sound.map {run : Run τ α} {parser : Parser τ g.Rule α} (sound : Sound g input run parser)
    (f : α → β) : Sound g input (Run.map f run) (.map f parser) := by
  intro p
  rcases sound p with stuck | ⟨ending, same, ends⟩
  · exact .inl (by rw [Run.map, stuck]; rfl)
  · exact .inr ⟨_, by rw [Run.map, same, ending.outcome_map], .map ends⟩

theorem Sound.within {run : Run τ α} {parser : Parser τ g.Rule α} (sound : Sound g input run parser)
    (part : String) : Sound g input (Run.within part run) (.within part parser) := by
  intro p
  rcases sound p with stuck | ⟨ending, same, ends⟩
  · exact .inl (by rw [Run.within, stuck]; rfl)
  · exact .inr ⟨_, by rw [Run.within, same, ending.outcome_within], .within ends⟩

theorem Sound.optional {run : Run τ α} {parser : Parser τ g.Rule α}
    (sound : Sound g input run parser) :
    Sound g input (Run.optional run) (.optional parser) := by
  intro p
  rcases sound.cases p with stuck | ⟨value, q, read, ends⟩ | ⟨e, fails, ends⟩
  · exact .inl (by rw [Run.optional, stuck])
  · exact .inr ⟨_, by rw [Run.optional, read]; rfl, .present ends⟩
  · exact .inr ⟨_, by rw [Run.optional, fails]; rfl, .missing ends⟩

theorem Sound.pair {first : Run τ α} {second : Run τ β} {left : Parser τ g.Rule α}
    {right : Parser τ g.Rule β} (soundL : Sound g input first left)
    (soundR : Sound g input second right) :
    Sound g input (Run.pair first second) (.pair left right) := by
  intro p
  rcases soundL.cases p with stuck | ⟨a, q, read, ends⟩ | ⟨e, fails, ends⟩
  · exact .inl (by rw [Run.pair, stuck]; rfl)
  · rw [Run.pair_of_success read]
    rcases soundR q with stuck | ⟨ending, same, ends'⟩
    · exact .inl (by rw [stuck]; rfl)
    · exact .inr ⟨_, by rw [same, ending.outcome_map], .pair ends ends'⟩
  · exact .inr ⟨_, Run.pair_of_failure fails _, .noPair ends⟩

theorem Sound.triple {first : Run τ α} {second : Run τ β} {third : Run τ γ}
    {left : Parser τ g.Rule α} {middle : Parser τ g.Rule β} {right : Parser τ g.Rule γ}
    (soundL : Sound g input first left) (soundM : Sound g input second middle)
    (soundR : Sound g input third right) :
    Sound g input (Run.triple first second third) (.triple left middle right) := fun p =>
  (soundL.pair (soundM.pair soundR) p).imp_right fun ⟨ending, same, ends⟩ =>
    ⟨ending, same, .triple ends⟩

theorem Sound.preceded {first : Run τ α} {second : Run τ β} {left : Parser τ g.Rule α}
    {right : Parser τ g.Rule β} (soundL : Sound g input first left)
    (soundR : Sound g input second right) :
    Sound g input (Run.preceded first second) (.preceded left right) := by
  intro p
  rw [Run.preceded_eq_map_pair, Run.map]
  rcases soundL.pair soundR p with stuck | ⟨ending, same, ends⟩
  · exact .inl (by rw [stuck]; rfl)
  · exact .inr ⟨_, by rw [same, ending.outcome_map], .preceded ends⟩

theorem Sound.delimited {first : Run τ α} {second : Run τ β} {third : Run τ γ}
    {left : Parser τ g.Rule α} {middle : Parser τ g.Rule β} {right : Parser τ g.Rule γ}
    (soundL : Sound g input first left) (soundM : Sound g input second middle)
    (soundR : Sound g input third right) :
    Sound g input (Run.delimited first second third) (.delimited left middle right) := by
  intro p
  rw [Run.delimited_eq_map_triple, Run.map]
  rcases soundL.triple soundM soundR p with stuck | ⟨ending, same, ends⟩
  · exact .inl (by rw [stuck]; rfl)
  · exact .inr ⟨_, by rw [same, ending.outcome_map], .delimited ends⟩

theorem Sound.manyWithin {run : Run τ α} {parser : Parser τ g.Rule α}
    (sound : Sound g input run parser) (rounds p : Nat) :
    Run.manyWithin run rounds (.behind input p) = .endless ∨
      ∃ values q, Run.manyWithin run rounds (.behind input p) =
          .success values (.behind input q) ∧
        g.Ends input (.many parser) p (.success values q) := by
  induction rounds generalizing p with
  | zero => exact .inl rfl
  | succ rounds ih =>
      rcases sound.cases p with stuck | ⟨value, q, read, ends⟩ | ⟨e, fails, ends⟩
      · exact .inl (by rw [Run.manyWithin, stuck])
      · by_cases further : p < q
        · rw [Run.manyWithin_of_lt read further]
          rcases ih q with stuck | ⟨values, r, more, ends'⟩
          · exact .inl (by rw [stuck]; rfl)
          · exact .inr ⟨_, r, by rw [more]; rfl, .more ends further ends'⟩
        · exact .inr ⟨_, p, Run.manyWithin_of_not_lt read further _, .idle ends further⟩
      · exact .inr ⟨_, p, Run.manyWithin_of_failure fails _, .noMore ends⟩

theorem Sound.many {run : Run τ α} {parser : Parser τ g.Rule α} (sound : Sound g input run parser) :
    Sound g input (Run.many run) (.many parser) := fun p =>
  (sound.manyWithin _ p).imp_right fun ⟨values, q, same, ends⟩ => ⟨.success values q, same, ends⟩

/-- The rest of a list is sound behind its first item. -/
theorem sound_separatedWithin {item : Run τ α} {separator : Run τ β} {itemP : Parser τ g.Rule α}
    {separatorP : Parser τ g.Rule β} (sound : Sound g input item itemP)
    (soundS : Sound g input separator separatorP) {value : α} {p q : Nat}
    (ends : g.Ends input itemP p (.success value q)) (rounds : Nat) :
    Run.separatedWithin item separator rounds (.behind input q) = .endless ∨
      ∃ values r, Run.separatedWithin item separator rounds (.behind input q) =
          .success values (.behind input r) ∧
        g.Ends input (.separated itemP separatorP) p (.success (value :: values) r) := by
  -- The place behind an item is where the next round starts, so the item goes along with the
  -- rounds.
  induction rounds generalizing value p q with
  | zero => exact .inl rfl
  | succ rounds ih =>
      rcases soundS.cases q with stuck | ⟨mark, m, marked, endsS⟩ | ⟨e, fails, endsS⟩
      · exact .inl (by rw [Run.separatedWithin, stuck])
      · rcases sound.cases m with stuck | ⟨value', q', read, ends'⟩ | ⟨e, fails, ends'⟩
        · exact .inl (by simp only [Run.separatedWithin, marked, stuck])
        · by_cases further : q < q'
          · rw [Run.separatedWithin_of_lt marked read further]
            rcases ih ends' with stuck | ⟨values, r, more, ends''⟩
            · exact .inl (by rw [stuck]; rfl)
            · exact .inr ⟨_, r, by rw [more]; rfl, .nextItem ends endsS ends''⟩
          · exact .inl (Run.separatedWithin_of_not_lt marked read further _)
        · exact .inr ⟨_, m, Run.separatedWithin_of_trailing marked fails _,
            .nextItem ends endsS (.noItem ends')⟩
      · exact .inr ⟨_, q, Run.separatedWithin_of_failure fails _, .lastItem ends endsS⟩

theorem Sound.separated {item : Run τ α} {separator : Run τ β} {itemP : Parser τ g.Rule α}
    {separatorP : Parser τ g.Rule β} (sound : Sound g input item itemP)
    (soundS : Sound g input separator separatorP) :
    Sound g input (Run.separated item separator) (.separated itemP separatorP) := by
  intro p
  rcases sound.cases p with stuck | ⟨value, q, read, ends⟩ | ⟨e, fails, ends⟩
  · exact .inl (by rw [Run.separated, stuck])
  · have rest := sound_separatedWithin sound soundS ends ((Cursor.behind input q).rest.length + 1)
    rw [Run.separated_of_success read]
    rcases rest with stuck | ⟨values, r, more, ends'⟩
    · exact .inl (by rw [stuck]; rfl)
    · exact .inr ⟨_, by rw [more]; rfl, ends'⟩
  · exact .inr ⟨_, Run.separated_of_failure fails _, .noItem ends⟩

/-- A list goes on behind a separator like one that starts there.  If its next round came back to
where it started, the list that starts there would not end. -/
theorem Sound.separated_of_marked {item : Run τ α} {separator : Run τ β} {itemP : Parser τ g.Rule α}
    (sound : Sound g input item itemP) {value : α} {mark : β} {values : List α} {p q m : Nat}
    {next : Cursor τ} (le : q ≤ m) (bound : m ≤ max q input.length)
    (read : item (.behind input p) = .success value (.behind input q))
    (marked : separator (.behind input q) = .success mark (.behind input m))
    (more : Run.separated item separator (.behind input m) = .success values next) :
    Run.separated item separator (.behind input p) = .success (value :: values) next := by
  rw [Run.separated_of_success read]
  refine Outcome.map_eq_success_iff.mpr ⟨values, ?_, rfl⟩
  rcases sound.cases m with stuck | ⟨value', q', read', ends⟩ | ⟨e, fails, -⟩
  · simp [Run.separated, stuck] at more
  · obtain ⟨le', bound'⟩ := ends.inside
    rw [Run.separated_of_success read'] at more
    obtain ⟨rest, later, rfl⟩ := Outcome.map_eq_success_iff.mp more
    by_cases further : q < q'
    · have fewer :
        (Cursor.behind input q').rest.length + 1 ≤ (Cursor.behind input q).rest.length := by
        simp only [Cursor.behind, List.length_drop]
        omega
      rw [Run.separatedWithin_of_lt marked read' further]
      exact Outcome.map_eq_success_iff.mpr ⟨rest, Run.separatedWithin_mono later fewer, rfl⟩
    · obtain rfl : q' = q := by omega
      rw [Run.separatedWithin_of_not_lt marked read' further] at later
      cases later
  · rw [Run.separated_of_failure fails] at more
    cases more
    exact Run.separatedWithin_of_trailing marked fails _

variable [DecidableEq τ]

theorem sound_run {callRule : {α : Type} → g.Rule α → Run τ α}
    (calls : ∀ {α : Type} (rule : g.Rule α), Sound g input (callRule rule) (.call rule))
    (parser : Parser τ g.Rule α) : Sound g input (parser.run callRule) parser := by
  induction parser with
  | equal value => exact sound_equal value
  | satisfy read => exact sound_satisfy read
  | never => exact fun _ => .inr ⟨_, rfl, .never⟩
  | orElse _ _ first second => exact first.orElse second
  | map f _ sound => exact sound.map f
  | many _ sound => exact sound.many
  | separated _ _ item separator => exact item.separated separator
  | optional _ sound => exact sound.optional
  | pair _ _ first second => exact first.pair second
  | triple _ _ _ first second third => exact first.triple second third
  | preceded _ _ first second => exact first.preceded second
  | delimited _ _ _ left middle right => exact left.delimited middle right
  | within part _ sound => exact sound.within part
  | call rule => exact calls rule

theorem sound_runWithin (depth : Nat) (parser : Parser τ g.Rule α) :
    Sound g input (g.runWithin depth parser) parser := by
  induction depth generalizing α with
  | zero => exact sound_run (fun _ _ => .inl rfl) parser
  | succ depth ih =>
      refine sound_run (fun rule p => ?_) parser
      exact (ih (g.body rule) p).imp_right fun ⟨ending, same, ends⟩ => ⟨ending, same, .call ends⟩

theorem sound_calls (depth : Nat) (parser : Parser τ g.Rule α) :
    Sound g input (parser.run fun rule => g.runWithin depth (.call rule)) parser :=
  sound_run (fun rule => sound_runWithin depth (.call rule)) parser

/-! ## Runs are complete -/

open Filter

/-- A parser that ends does so wherever its calls may nest deep enough. -/
theorem eventually_run {parser : Parser τ g.Rule α} {p : Nat} {ending : Ending α}
    (ends : g.Ends input parser p ending) :
    ∀ᶠ depth in atTop, (parser.run fun rule => g.runWithin depth (.call rule)) (.behind input p) =
      ending.outcome input := by
  induction ends with
  | equal found =>
      refine .of_forall fun depth => ?_
      rw [Cursor.behind_of_some found]
      exact if_pos rfl
  | other found other =>
      refine .of_forall fun depth => ?_
      rw [Cursor.behind_of_some found]
      exact if_neg other
  | satisfied found means | unsatisfied found means =>
      refine .of_forall fun depth => ?_
      rw [Cursor.behind_of_some found]
      simp only [Parser.run, Run.satisfy, means]
      rfl
  | equalBehind missing | satisfyBehind missing =>
      refine .of_forall fun depth => ?_
      rw [Cursor.behind_of_none missing]
      rfl
  | never => exact .of_forall fun _ => rfl
  | first _ here =>
      filter_upwards [here] with depth here
      rw [Parser.run, Run.orElse, here]
      rfl
  | second _ _ here there =>
      filter_upwards [here, there] with depth here there
      rw [Parser.run, Run.orElse, here, ← there]
      rfl
  | map _ here =>
      filter_upwards [here] with depth here
      rw [Parser.run, Run.map, here, Ending.outcome_map]
  | more first further _ here behind =>
      filter_upwards [here, behind] with depth here behind
      obtain ⟨-, bound⟩ := first.inside
      exact Run.many_of_lt further bound here behind
  | idle _ idle here =>
      filter_upwards [here] with depth here
      exact Run.manyWithin_of_not_lt here idle _
  | noMore _ here =>
      filter_upwards [here] with depth here
      exact Run.manyWithin_of_failure here _
  | noItem _ here =>
      filter_upwards [here] with depth here
      exact Run.separated_of_failure here _
  | lastItem _ _ here mark =>
      filter_upwards [here, mark] with depth here mark
      rw [Parser.run, Run.separated_of_success here, Run.separatedWithin_of_failure mark]
      rfl
  | nextItem _ marked _ here mark behind =>
      filter_upwards [here, mark, behind] with depth here mark behind
      obtain ⟨le, bound⟩ := marked.inside
      exact (sound_calls depth _).separated_of_marked le bound here mark behind
  | present _ here | missing _ here =>
      filter_upwards [here] with depth here
      rw [Parser.run, Run.optional, here]
      rfl
  | pair _ _ here behind =>
      filter_upwards [here, behind] with depth here behind
      rw [Parser.run, Run.pair_of_success here, behind, Ending.outcome_map]
  | noPair _ here =>
      filter_upwards [here] with depth here
      exact Run.pair_of_failure here _
  | triple _ here =>
      filter_upwards [here] with depth here
      exact here
  | preceded _ here =>
      filter_upwards [here] with depth here
      rw [Parser.run, Run.preceded_eq_map_pair, Run.map]
      exact (congrArg _ here).trans (Ending.outcome_map ..).symm
  | delimited _ here =>
      filter_upwards [here] with depth here
      rw [Parser.run, Run.delimited_eq_map_triple, Run.map]
      exact (congrArg _ here).trans (Ending.outcome_map ..).symm
  | within _ here =>
      filter_upwards [here] with depth here
      rw [Parser.run, Run.within, here, Ending.outcome_within]
  | call _ here =>
      -- The call takes one level, so the body runs with one less.
      obtain ⟨enough, here⟩ := eventually_atTop.mp here
      refine eventually_atTop.mpr ⟨enough + 1, fun depth le => ?_⟩
      obtain ⟨depth, rfl⟩ := Nat.exists_eq_add_of_le' le
      change g.runWithin (depth + enough) (g.body _) _ = _
      rw [runWithin_eq]
      exact here _ (Nat.le_add_left ..)

theorem eventually_runWithin {parser : Parser τ g.Rule α} {p : Nat} {ending : Ending α}
    (ends : g.Ends input parser p ending) :
    ∀ᶠ depth in atTop, g.runWithin depth parser (.behind input p) = ending.outcome input := by
  filter_upwards [eventually_run ends] with depth same
  rw [runWithin_eq, same]

/-- The endings of a parser are the outcomes of its runs. -/
theorem ends_iff {parser : Parser τ g.Rule α} {p : Nat} {ending : Ending α} :
    g.Ends input parser p ending ↔
      ∃ depth, g.runWithin depth parser (.behind input p) = ending.outcome input := by
  constructor
  · exact fun ends => (eventually_runWithin ends).exists
  · rintro ⟨depth, same⟩
    rcases sound_runWithin depth parser p with stuck | ⟨ending', same', ends⟩
    · exact absurd (same.symm.trans stuck) (ending.outcome_ne_endless input)
    · obtain rfl := ending.outcome_injective input (same.symm.trans same')
      exact ends

/-- A parser ends in one way at most. -/
theorem Ends.unique {parser : Parser τ g.Rule α} {p : Nat} {ending ending' : Ending α}
    (ends : g.Ends input parser p ending) (ends' : g.Ends input parser p ending') :
    ending = ending' := by
  obtain ⟨depth, same, same'⟩ :=
    ((eventually_runWithin ends).and (eventually_runWithin ends')).exists
  exact Ending.outcome_injective input (same.symm.trans same')

end Grammar

end Trigger
