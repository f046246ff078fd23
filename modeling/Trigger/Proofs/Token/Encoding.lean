import Trigger.Proofs.Token.Spelling

/-!
# Encodings of strings

`Encodes quote s body` says that the characters `body` write the string `s` between two quotes of
the given kind.  Each character of `s` stands there as it is, or as a backslash with the name that
it has behind one.  The backslash, the quote and the line feed never stand there as they are.

A string has many encodings, and the literal rule reads every one of them as the string.  It reads
nothing else that starts with a quote (`quoted_literal_iff_encodes`).
-/

namespace Trigger.Lexeme

/-- The names that a character may have behind a backslash, each with its character. -/
def escapes : List (Char × Char) :=
  [('n', '\n'), ('t', '\t'), ('r', '\r'), ('0', '\x00'), ('\\', '\\'), ('\'', '\''), ('"', '"')]

theorem unescape?_eq_some_iff {name c : Char} : unescape? name = some c ↔ (name, c) ∈ escapes := by
  constructor
  · intro found
    have named : name ∈ escapes.map Prod.fst := by
      refine Decidable.byContradiction fun other => ?_
      simp only [escapes, List.map_cons, List.map_nil, List.mem_cons, List.not_mem_nil, or_false,
        not_or] at other
      simp [unescape?, other] at found
    have all : (escapes.map Prod.fst).all
        (fun name => (unescape? name).all fun c => escapes.contains (name, c)) = true := by decide
    have here := List.all_eq_true.mp all name named
    rw [found] at here
    exact List.contains_iff_mem.mp here
  · intro known
    have all : escapes.all (fun (name, c) => unescape? name = some c) = true := by decide
    exact of_decide_eq_true (List.all_eq_true.mp all _ known)

/-- The characters that write one character of a string. -/
inductive EncodesChar (quote : Char) : Char → List Char → Prop
  | plain {c : Char} : c ≠ '\\' → c ≠ quote → c ≠ '\n' → EncodesChar quote c [c]
  | escaped {name c : Char} : (name, c) ∈ escapes → EncodesChar quote c ['\\', name]

/-- The characters that write a string, one character after the other. -/
inductive Encodes (quote : Char) : List Char → List Char → Prop
  | nil : Encodes quote [] []
  | cons {c : Char} {piece s body : List Char} :
      EncodesChar quote c piece → Encodes quote s body → Encodes quote (c :: s) (piece ++ body)

section
variable {quote : Char} {cs s body source rest : List Char}

/-- An encoding is read up to the quote behind it. -/
theorem Encodes.stringBody? (encodes : Encodes quote s body) (apart : '\\' ≠ quote) :
    stringBody? quote (body ++ quote :: rest) = some (s, body ++ [quote], rest) := by
  induction encodes with
  | nil => exact stringBody?_quote quote rest
  | @cons c piece s body first _ ih =>
      cases first with
      | plain backslash other line =>
          rw [List.append_assoc, List.singleton_append, stringBody?_plain other line backslash, ih]
          rfl
      | escaped known =>
          rw [List.append_assoc, List.cons_append, List.singleton_append,
            stringBody?_escape apart (unescape?_eq_some_iff.mpr known), ih]
          rfl

/-- What is read up to a quote is an encoding. -/
theorem encodes_of_stringBody? (found : Lexeme.stringBody? quote cs = some (s, source, rest)) :
    ∃ body, Encodes quote s body ∧ source = body ++ [quote] := by
  fun_induction Lexeme.stringBody? quote cs generalizing s source with
  | case1 | case3 | case4 => cases found
  | case2 =>
      cases found
      exact ⟨[], .nil, rfl⟩
  | case5 name more apart ends ih =>
      obtain ⟨c, escape, found⟩ := Option.bind_eq_some_iff.mp found
      obtain ⟨⟨inner, spelling, last⟩, behind, same⟩ := Option.bind_eq_some_iff.mp found
      cases same
      obtain ⟨body, encodes, rfl⟩ := ih behind
      exact ⟨_, .cons (.escaped (unescape?_eq_some_iff.mp escape)) encodes, rfl⟩
  | case6 c more apart ends plain ih =>
      obtain ⟨⟨inner, spelling, last⟩, behind, same⟩ := Option.map_eq_some_iff.mp found
      cases same
      obtain ⟨body, encodes, rfl⟩ := ih behind
      exact ⟨_, .cons (.plain plain apart ends) encodes, rfl⟩

/-- Behind a quote stands no literal but a string. -/
theorem literal?_quote (quoted : quote = '"' ∨ quote = '\'') :
    literal? (quote :: cs) = (Lexeme.stringBody? quote cs).map fun (contents, source, rest) =>
      ⟨.string (String.ofList contents), quote :: source, rest⟩ := by
  have digit : quote.isDigit = false := by rcases quoted with rfl | rfl <;> rfl
  have isQuote : (decide (quote = '"') || decide (quote = '\'')) = true := by simpa using quoted
  rw [literal?, number?_eq_none digit, string?, if_pos isQuote]
  cases Lexeme.stringBody? quote cs <;> rfl

/-- Behind a quote the literal rule reads an encoding and another quote, as the string that is
encoded, and it leaves what stands behind.  Where the text does not start with an encoding and
another quote, the rule fails. -/
theorem quoted_literal_iff_encodes (quoted : quote = '"' ∨ quote = '\'') (cs : List Char) :
    (∀ token source rest, literal? (quote :: cs) = some ⟨token, source, rest⟩ ↔
      ∃ s body, Encodes quote s body ∧ cs = body ++ quote :: rest ∧
        token = .string (String.ofList s) ∧ source = quote :: (body ++ [quote])) ∧
    (literal? (quote :: cs) = none ↔
      ∀ s body rest, Encodes quote s body → cs ≠ body ++ quote :: rest) := by
  have apart : '\\' ≠ quote := by rcases quoted with rfl | rfl <;> decide
  have read : ∀ token source rest, literal? (quote :: cs) = some ⟨token, source, rest⟩ ↔
      ∃ s body, Encodes quote s body ∧ cs = body ++ quote :: rest ∧
        token = .string (String.ofList s) ∧ source = quote :: (body ++ [quote]) := by
    intro token source rest
    rw [literal?_quote quoted]
    constructor
    · intro found
      obtain ⟨⟨s, spelling, last⟩, behind, same⟩ := Option.map_eq_some_iff.mp found
      cases same
      obtain ⟨rfl, -⟩ := stringBody?_eq_some behind
      obtain ⟨body, encodes, rfl⟩ := encodes_of_stringBody? behind
      exact ⟨s, body, encodes, by simp, rfl, rfl⟩
    · rintro ⟨s, body, encodes, rfl, rfl, rfl⟩
      rw [encodes.stringBody? apart]
      rfl
  refine ⟨read, fun fails s body rest encodes eq => ?_, fun never => ?_⟩
  · have found := (read _ _ rest).mpr ⟨s, body, encodes, eq, rfl, rfl⟩
    rw [fails] at found
    cases found
  · rw [Option.eq_none_iff_forall_ne_some]
    rintro ⟨token, source, rest⟩ found
    obtain ⟨s, body, encodes, eq, -, -⟩ := (read token source rest).mp found
    exact never s body rest encodes eq

end

/-- Backslashes in front of the closing quote, the other quote as it is, and one of two spellings of
the tabulator. -/
theorem quoted_literal_iff_encodes_backslashes :
    ('\'' = '"' ∨ '\'' = '\'') ∧ Encodes '\'' ['"', '\t', '\'', '\\'] "\"\\t\\'\\\\".toList ∧
      literal? "'\"\\t\\'\\\\' == x".toList =
        some ⟨.string "\"\t'\\", "'\"\\t\\'\\\\'".toList, " == x".toList⟩ := by
  have quoted : '\'' = '"' ∨ '\'' = '\'' := .inr rfl
  have encodes : Encodes '\'' ['"', '\t', '\'', '\\'] "\"\\t\\'\\\\".toList :=
    .cons (.plain (by decide) (by decide) (by decide)) <|
      .cons (.escaped (show ('t', '\t') ∈ escapes by decide)) <|
      .cons (.escaped (show ('\'', '\'') ∈ escapes by decide)) <|
      .cons (.escaped (show ('\\', '\\') ∈ escapes by decide)) .nil
  exact ⟨quoted, encodes, ((quoted_literal_iff_encodes quoted _).1 _ _ _).mpr
    ⟨_, _, encodes, rfl, rfl, rfl⟩⟩

end Trigger.Lexeme
