import Trigger.Proofs.Token.Scans

/-!
# How tokens are spelled

`Token.Spelled t source` says that the characters `source` write the token `t`, and `Token.Stops t
tail` that a token which is spelled like `t` ends in front of `tail`.  These two say all that the
scanner needs to know of a text:

* what it cuts off is a spelling, and together with the rest it is the text (`spelled_of_first?`);
* it cuts off every spelling in front of a text where the token stops (`Spelled.first?`).

Neither speaks of what else stands in the text.  So a token is cut off alike wherever it stops, and
a scan succeeds exactly where the text is cut into tokens (`scans_iff`).
-/

namespace Trigger

open Lexeme

theorem Lexeme.text_ofWord (word : List Char) : (ofWord word).text = word := by
  unfold ofWord
  cases found : Keyword.ofText? word with
  | some keyword =>
      have same := List.find?_some found
      exact of_decide_eq_true same
  | none => exact String.toList_ofList

namespace Token

/-- The characters that write a token. -/
inductive Spelled : Token → List Char → Prop
  | blanks {run : List Char} :
      run ≠ [] → run.all isGap = true → Spelled (.blanks (String.ofList run)) run
  | lineFeed : Spelled .lineBreak ['\n']
  | carriageReturn : Spelled .lineBreak ['\r', '\n']
  | blockComment {contents : List Char} :
      ¬ ['*', '/'] <:+: contents →
      Spelled (.blockComment (String.ofList contents)) (['/', '*'] ++ contents ++ ['*', '/'])
  | lineComment {contents : List Char} :
      contents.all (!endsLine ·) = true →
      Spelled (.lineComment (String.ofList (Text.trim contents))) (['/', '/'] ++ contents)
  | string {quote : Char} {contents source : List Char} :
      quote = '"' ∨ quote = '\'' → stringBody? quote source = some (contents, source, []) →
      Spelled (.string (String.ofList contents)) (quote :: source)
  | number {whole fraction : List Char} :
      whole ≠ [] → whole.all Char.isDigit = true → fraction.all Char.isDigit = true →
      Spelled (.number (Number.ofFixed whole fraction 0)) (digitsSource whole fraction)
  | operator (symbol : Operator) : Spelled (.operator symbol) symbol.text
  | delimiter (symbol : Delimiter) : Spelled (.delimiter symbol) symbol.text
  | word {c : Char} {cs : List Char} :
      startsWord c = true → cs.all continuesWord = true → Spelled (ofWord (c :: cs)) (c :: cs)

/-- The token does not go on into the text behind it. -/
def Stops : Token → List Char → Prop
  | .blanks _, tail => ∀ c ∈ tail.head?, isGap c = false
  | .lineComment _, tail => atLineEnd tail = true
  | .number _, tail => (∀ c ∈ tail.head?, c.isDigit = false) ∧ fraction? tail = none
  | .operator symbol, tail => ∀ c ∈ tail.head?, extends? symbol c = false
  | .keyword _, tail | .name _, tail => ∀ c ∈ tail.head?, continuesWord c = false
  | .lineBreak, _ | .blockComment _, _ | .string _, _ | .delimiter _, _ => True

theorem Spelled.ne_nil {token : Token} {source : List Char} (spelled : token.Spelled source) :
    source ≠ [] := by
  cases spelled with
  | blanks nonempty _ => exact nonempty
  | @number whole fraction nonempty _ _ =>
      cases fraction with
      | nil => exact nonempty
      | cons d fraction => simp [digitsSource]
  | operator symbol => cases symbol <;> nofun
  | delimiter symbol => cases symbol <;> nofun
  | _ => simp

end Token

/-! ## What the scanner cuts off -/

section Found

variable {cs source rest : List Char} {token : Token}

theorem all_takeWhile_append {p : Char → Bool} (cs : List Char) :
    (cs.takeWhile p).all p = true ∧ cs = cs.takeWhile p ++ cs.dropWhile p :=
  ⟨List.all_takeWhile, List.takeWhile_append_dropWhile.symm⟩

theorem spelled_of_blanks? (found : blanks? cs = some ⟨token, source, rest⟩) :
    token.Spelled source ∧ cs = source ++ rest := by
  obtain ⟨gaps, eq⟩ := all_takeWhile_append (p := isGap) cs
  unfold blanks? at found
  generalize cs.takeWhile isGap = run at gaps eq found
  cases run with
  | nil => cases found
  | cons c run =>
      cases found
      exact ⟨.blanks (by simp) gaps, eq⟩

theorem spelled_of_lineBreak? (found : lineBreak? cs = some ⟨token, source, rest⟩) :
    token.Spelled source ∧ cs = source ++ rest := by
  unfold lineBreak? at found
  split at found
  · cases found
    exact ⟨.lineFeed, rfl⟩
  · cases found
    exact ⟨.carriageReturn, rfl⟩
  · cases found

/-- A block comment ends at the first mark that closes it. -/
theorem untilClose?_eq_some {contents : List Char}
    (found : untilClose? cs = some (contents, rest)) :
    ¬ ['*', '/'] <:+: contents ∧ cs = contents ++ ['*', '/'] ++ rest := by
  induction cs generalizing contents with
  | nil => cases found
  | cons c cs ih =>
      simp only [untilClose?] at found
      split at found
      · rename_i behind closes
        cases found
        exact ⟨by simp, isPrefixOf?_eq_some_iff.mp closes⟩
      · rename_i here
        obtain ⟨⟨inner, last⟩, later, same⟩ := Option.map_eq_some_iff.mp found
        cases same
        obtain ⟨apart, rfl⟩ := ih later
        refine ⟨?_, rfl⟩
        rw [List.infix_cons_iff]
        rintro (⟨behind, eq⟩ | inside)
        · have closes : c :: (inner ++ ['*', '/'] ++ last) =
              ['*', '/'] ++ (behind ++ ['*', '/'] ++ last) := by
            rw [← List.cons_append, ← List.cons_append, ← eq]
            simp
          rw [isPrefixOf?_eq_some_iff.mpr closes] at here
          cases here
        · exact apart inside

theorem untilClose?_append {contents : List Char} (apart : ¬ ['*', '/'] <:+: contents)
    (tail : List Char) :
    untilClose? (contents ++ ['*', '/'] ++ tail) = some (contents, tail) := by
  induction contents with
  | nil => simp [untilClose?, isPrefixOf?_cons, isPrefixOf?_nil]
  | cons c contents ih =>
      rw [List.infix_cons_iff, not_or] at apart
      have here : ['*', '/'].isPrefixOf? (c :: (contents ++ ['*', '/'] ++ tail)) = none := by
        cases contents with
        | nil => simp [isPrefixOf?_cons]
        | cons d contents =>
            simp only [isPrefixOf?_cons, List.cons_append, isPrefixOf?_nil]
            split
            · rename_i star
              split
              · rename_i slash
                obtain rfl : '*' = c := by simpa using star
                obtain rfl : '/' = d := by simpa using slash
                exact absurd ⟨contents, rfl⟩ apart.1
              · rfl
            · rfl
      rw [List.cons_append, List.cons_append, untilClose?, here, ih apart.2]
      rfl

theorem spelled_of_comment? (found : comment? cs = some ⟨token, source, rest⟩) :
    token.Spelled source ∧ cs = source ++ rest := by
  rw [comment?, Option.orElse_eq_orElse, Option.orElse_eq_or, Option.or_eq_some_iff] at found
  rcases found with block | ⟨-, line⟩
  · obtain ⟨inside, opens, block⟩ := Option.bind_eq_some_iff.mp block
    obtain ⟨⟨contents, behind⟩, closes, same⟩ := Option.bind_eq_some_iff.mp block
    cases same
    obtain ⟨apart, rfl⟩ := untilClose?_eq_some closes
    exact ⟨.blockComment apart, by simpa using isPrefixOf?_eq_some_iff.mp opens⟩
  · obtain ⟨inside, opens, line⟩ := Option.bind_eq_some_iff.mp line
    obtain ⟨-, same⟩ := Option.ite_none_right_eq_some.mp line
    cases same
    obtain ⟨contents, eq⟩ := all_takeWhile_append (p := (!endsLine ·)) inside
    refine ⟨.lineComment contents, ?_⟩
    rw [List.append_assoc, ← eq]
    exact isPrefixOf?_eq_some_iff.mp opens

theorem stringBody?_quote (quote : Char) (cs : List Char) :
    stringBody? quote (quote :: cs) = some ([], [quote], cs) := by
  rw [stringBody?.eq_def]
  exact if_pos rfl

theorem stringBody?_escape {quote c d : Char} (apart : '\\' ≠ quote) (escape : unescape? c = some d)
    (cs : List Char) :
    stringBody? quote ('\\' :: c :: cs) =
      (stringBody? quote cs).map fun (contents, source, rest) =>
        (d :: contents, '\\' :: c :: source, rest) := by
  rw [stringBody?.eq_def]
  simp only [if_neg apart, escape]
  cases stringBody? quote cs <;> rfl

theorem stringBody?_plain {quote c : Char} (apart : c ≠ quote) (line : c ≠ '\n') (plain : c ≠ '\\')
    (cs : List Char) :
    stringBody? quote (c :: cs) =
      (stringBody? quote cs).map fun (contents, source, rest) =>
        (c :: contents, c :: source, rest) := by
  rw [stringBody?.eq_def]
  simp only [if_neg apart, if_neg line, if_neg plain]

/-- A string is read alike whatever stands behind it. -/
theorem stringBody?_eq_some {quote : Char} {contents : List Char}
    (found : stringBody? quote cs = some (contents, source, rest)) :
    cs = source ++ rest ∧
      ∀ tail, stringBody? quote (source ++ tail) = some (contents, source, tail) := by
  fun_induction stringBody? quote cs generalizing contents source with
  | case1 | case3 | case4 => cases found
  | case2 =>
      cases found
      exact ⟨rfl, stringBody?_quote quote⟩
  | case5 c more apart ends ih =>
      obtain ⟨d, escape, found⟩ := Option.bind_eq_some_iff.mp found
      obtain ⟨⟨inner, spelling, last⟩, body, same⟩ := Option.bind_eq_some_iff.mp found
      cases same
      obtain ⟨rfl, again⟩ := ih body
      refine ⟨rfl, fun tail => ?_⟩
      rw [List.cons_append, List.cons_append, stringBody?_escape apart escape, again tail]
      rfl
  | case6 c more apart ends plain ih =>
      obtain ⟨⟨inner, spelling, last⟩, body, same⟩ := Option.map_eq_some_iff.mp found
      cases same
      obtain ⟨rfl, again⟩ := ih body
      refine ⟨rfl, fun tail => ?_⟩
      rw [List.cons_append, stringBody?_plain apart ends plain, again tail]
      rfl

theorem spelled_of_string? (found : string? cs = some ⟨token, source, rest⟩) :
    token.Spelled source ∧ cs = source ++ rest := by
  cases cs with
  | nil => cases found
  | cons q cs =>
      obtain ⟨quote, found⟩ := Option.ite_none_right_eq_some.mp found
      obtain ⟨⟨contents, spelling, last⟩, body, same⟩ := Option.map_eq_some_iff.mp found
      cases same
      obtain ⟨rfl, again⟩ := stringBody?_eq_some body
      have alone := again []
      rw [List.append_nil] at alone
      exact ⟨.string (by simpa using quote) alone, rfl⟩

theorem fraction?_eq_some {fraction : List Char} (found : fraction? cs = some (fraction, rest)) :
    fraction ≠ [] ∧ fraction.all Char.isDigit = true ∧ cs = '.' :: (fraction ++ rest) := by
  unfold fraction? at found
  split at found
  · rename_i cs
    obtain ⟨digits, eq⟩ := all_takeWhile_append (p := Char.isDigit) cs
    unfold Number.spanDigits at found
    split at found
    · cases found
    · rename_i first last nonempty spanned
      cases found
      cases spanned
      exact ⟨fun none => nonempty none, digits, congrArg _ eq⟩
  · cases found

theorem digitsSource_of_ne_nil {fraction : List Char} (whole : List Char)
    (nonempty : fraction ≠ []) : digitsSource whole fraction = whole ++ '.' :: fraction := by
  cases fraction with
  | nil => contradiction
  | cons d fraction => rfl

theorem digits?_eq_some {whole fraction : List Char}
    (found : digits? cs = some (whole, fraction, rest)) :
    whole ≠ [] ∧ whole.all Char.isDigit = true ∧ fraction.all Char.isDigit = true ∧
      cs = digitsSource whole fraction ++ rest := by
  obtain ⟨digits, eq⟩ := all_takeWhile_append (p := Char.isDigit) cs
  unfold digits? Number.spanDigits at found
  split at found
  · cases found
  · rename_i first behind nonempty spanned
    cases spanned
    split at found
    · rename_i point
      cases found
      obtain ⟨more, digits', eq'⟩ := fraction?_eq_some point
      refine ⟨fun none => nonempty none, digits, digits', ?_⟩
      rw [digitsSource_of_ne_nil _ more, List.append_assoc, List.cons_append, ← eq']
      exact eq
    · cases found
      exact ⟨fun none => nonempty none, digits, rfl, eq⟩

theorem spelled_of_number? (found : number? cs = some ⟨token, source, rest⟩) :
    token.Spelled source ∧ cs = source ++ rest := by
  obtain ⟨⟨whole, fraction, last⟩, digits, same⟩ := Option.map_eq_some_iff.mp found
  cases same
  obtain ⟨nonempty, all, all', eq⟩ := digits?_eq_some digits
  exact ⟨.number nonempty all all', eq⟩

theorem spelled_of_operator? (found : operator? cs = some ⟨token, source, rest⟩) :
    token.Spelled source ∧ cs = source ++ rest := by
  obtain ⟨symbol, -, found⟩ := List.exists_of_findSome?_eq_some found
  obtain ⟨last, isFirst, same⟩ := Option.map_eq_some_iff.mp found
  cases same
  exact ⟨.operator symbol, isPrefixOf?_eq_some_iff.mp isFirst⟩

theorem spelled_of_delimiter? (found : delimiter? cs = some ⟨token, source, rest⟩) :
    token.Spelled source ∧ cs = source ++ rest := by
  obtain ⟨symbol, -, found⟩ := List.exists_of_findSome?_eq_some found
  obtain ⟨last, isFirst, same⟩ := Option.map_eq_some_iff.mp found
  cases same
  exact ⟨.delimiter symbol, isPrefixOf?_eq_some_iff.mp isFirst⟩

theorem spelled_of_word? (found : word? cs = some ⟨token, source, rest⟩) :
    token.Spelled source ∧ cs = source ++ rest := by
  cases cs with
  | nil => cases found
  | cons c cs =>
      obtain ⟨starts, same⟩ := Option.ite_none_right_eq_some.mp found
      cases same
      obtain ⟨continues, eq⟩ := all_takeWhile_append (p := continuesWord) cs
      exact ⟨.word starts continues, congrArg (c :: ·) eq⟩

/-- What is cut off is a spelling of the token, and the text is what is cut off and the rest. -/
theorem spelled_of_first? (found : first? cs = some ⟨token, source, rest⟩) :
    token.Spelled source ∧ cs = source ++ rest := by
  obtain ⟨rule, mem, found⟩ := List.exists_of_findSome?_eq_some found
  simp only [rules, List.mem_cons, List.not_mem_nil, or_false] at mem
  rcases mem with rfl | rfl | rfl | rfl | rfl | rfl | rfl
  · exact spelled_of_blanks? found
  · exact spelled_of_lineBreak? found
  · exact spelled_of_comment? found
  · rw [literal?, Option.orElse_eq_orElse, Option.orElse_eq_or, Option.or_eq_some_iff] at found
    rcases found with string | ⟨-, number⟩
    · exact spelled_of_string? string
    · exact spelled_of_number? number
  · exact spelled_of_operator? found
  · exact spelled_of_delimiter? found
  · exact spelled_of_word? found

end Found

/-! ## What is cut off in front of a text -/

/-- No other kind of token starts like a word. -/
theorem isPlain_of_startsWord {c : Char} (starts : startsWord c = true) : isPlain c = true := by
  have none : (marks ++ [' ', '\t', '\n', '\r'] ++ (List.range' 48 10).map Char.ofNat).all
      (!startsWord ·) = true := by decide +kernel
  have apart (d : Char) (mem : d ∈ marks ++ [' ', '\t', '\n', '\r'] ++
      (List.range' 48 10).map Char.ofNat) : c ≠ d := by
    rintro rfl
    have other := List.all_eq_true.mp none c mem
    rw [starts] at other
    cases other
  have unmarked : c ∉ marks := fun mem => apart c (by simp [mem]) rfl
  have digit : c.isDigit = false := by
    cases digit : c.isDigit with
    | false => rfl
    | true =>
        refine absurd rfl (apart c (List.mem_append_right _ ?_))
        exact List.mem_map.mpr ⟨c.toNat, mem_range_of_isDigit digit, Char.ofNat_toNat c⟩
  simp [isPlain, starts, unmarked, digit, isGap, endsLine, apart]

theorem takeWhile_append_of_stop {p : Char → Bool} {cs tail : List Char} (all : cs.all p = true)
    (stop : ∀ c ∈ tail.head?, p c = false) :
    (cs ++ tail).takeWhile p = cs ∧ (cs ++ tail).dropWhile p = tail := by
  have all := List.all_eq_true.mp all
  rw [List.takeWhile_append_of_pos all, List.dropWhile_append_of_pos all]
  cases tail with
  | nil => simp
  | cons c tail => simp [stop c rfl]

theorem spanDigits_append_of_stop {digits tail : List Char} (all : digits.all Char.isDigit = true)
    (stop : ∀ c ∈ tail.head?, c.isDigit = false) :
    Number.spanDigits (digits ++ tail) = (digits, tail) := by
  obtain ⟨front, behind⟩ := takeWhile_append_of_stop all stop
  rw [Number.spanDigits, front, behind]

theorem digits?_digitsSource {whole fraction tail : List Char} (nonempty : whole ≠ [])
    (digits : whole.all Char.isDigit = true) (digits' : fraction.all Char.isDigit = true)
    (stop : ∀ c ∈ tail.head?, c.isDigit = false) (point : fraction? tail = none) :
    digits? (digitsSource whole fraction ++ tail) = some (whole, fraction, tail) := by
  cases whole with
  | nil => contradiction
  | cons d whole =>
      cases fraction with
      | nil => simp only [digits?, digitsSource, spanDigits_append_of_stop digits stop, point]
      | cons e fraction =>
          have front : Number.spanDigits (digitsSource (d :: whole) (e :: fraction) ++ tail) =
              (d :: whole, '.' :: (e :: fraction ++ tail)) := by
            rw [digitsSource_of_ne_nil _ (by simp), List.append_assoc]
            exact spanDigits_append_of_stop digits (by simp)
          have back : fraction? ('.' :: (e :: fraction ++ tail)) = some (e :: fraction, tail) := by
            rw [fraction?, spanDigits_append_of_stop digits' stop]
          simp only [digits?, front, back]

theorem first?_blanks {run tail : List Char} (nonempty : run ≠ []) (gaps : run.all isGap = true)
    (stop : ∀ c ∈ tail.head?, isGap c = false) :
    first? (run ++ tail) = some ⟨.blanks (String.ofList run), run, tail⟩ := by
  obtain ⟨front, behind⟩ := takeWhile_append_of_stop gaps stop
  have found : blanks? (run ++ tail) = some ⟨.blanks (String.ofList run), run, tail⟩ := by
    rw [blanks?, front, behind]
    cases run with
    | nil => contradiction
    | cons c run => rfl
  simp only [first?, rules, List.findSome?_cons, found]

theorem first?_of_comment? {cs : List Char} {lexeme : Lexeme} (slash : cs.head? = some '/')
    (found : comment? cs = some lexeme) : first? cs = some lexeme := by
  obtain ⟨cs, rfl⟩ := List.head?_eq_some_iff.mp slash
  have blanks : blanks? ('/' :: cs) = none := blanks?_eq_none rfl
  have lineBreak : lineBreak? ('/' :: cs) = none := lineBreak?_eq_none rfl
  simp only [first?, rules, List.findSome?_cons, blanks, lineBreak, found]

theorem first?_blockComment {contents : List Char} (apart : ¬ ['*', '/'] <:+: contents)
    (tail : List Char) :
    first? (['/', '*'] ++ contents ++ ['*', '/'] ++ tail) =
      some ⟨.blockComment (String.ofList contents), ['/', '*'] ++ contents ++ ['*', '/'],
        tail⟩ := by
  have opens : ['/', '*'].isPrefixOf? (['/', '*'] ++ contents ++ ['*', '/'] ++ tail) =
      some (contents ++ ['*', '/'] ++ tail) := isPrefixOf?_eq_some_iff.mpr (by simp)
  have found : blockComment? (['/', '*'] ++ contents ++ ['*', '/'] ++ tail) = some
      ⟨.blockComment (String.ofList contents), ['/', '*'] ++ contents ++ ['*', '/'], tail⟩ := by
    rw [blockComment?, opens, Option.bind_eq_bind, Option.bind_some, untilClose?_append apart tail]
    rfl
  exact first?_of_comment? rfl (by rw [comment?, found]; rfl)

theorem first?_lineComment {contents tail : List Char}
    (inside : contents.all (!endsLine ·) = true) (ends : atLineEnd tail = true) :
    first? (['/', '/'] ++ contents ++ tail) =
      some ⟨.lineComment (String.ofList (Text.trim contents)), ['/', '/'] ++ contents, tail⟩ := by
  have stop : ∀ c ∈ tail.head?, (!endsLine c) = false := by
    unfold atLineEnd at ends
    split at ends
    · nofun
    · rintro _ ⟨⟩
      rfl
    · rintro _ ⟨⟩
      rfl
    · cases ends
  obtain ⟨front, behind⟩ := takeWhile_append_of_stop inside stop
  have opens : ['/', '/'].isPrefixOf? (['/', '/'] ++ contents ++ tail) = some (contents ++ tail) :=
    isPrefixOf?_eq_some_iff.mpr (by simp)
  have block : blockComment? (['/', '/'] ++ contents ++ tail) = none := rfl
  have found : lineComment? (['/', '/'] ++ contents ++ tail) = some
      ⟨.lineComment (String.ofList (Text.trim contents)), ['/', '/'] ++ contents, tail⟩ := by
    rw [lineComment?, opens, Option.bind_eq_bind, Option.bind_some]
    simp only [front, behind, ends]
    rfl
  exact first?_of_comment? rfl (by rw [comment?, block, found]; rfl)

theorem first?_of_string? {quote : Char} {cs : List Char} {lexeme : Lexeme}
    (quoted : quote = '"' ∨ quote = '\'') (found : string? (quote :: cs) = some lexeme) :
    first? (quote :: cs) = some lexeme := by
  have blanks : blanks? (quote :: cs) = none := by
    rcases quoted with rfl | rfl <;> exact blanks?_eq_none rfl
  have lineBreak : lineBreak? (quote :: cs) = none := by
    rcases quoted with rfl | rfl <;> exact lineBreak?_eq_none rfl
  have comment : comment? (quote :: cs) = none := by rcases quoted with rfl | rfl <;> rfl
  simp only [first?, rules, List.findSome?_cons, blanks, lineBreak, comment, literal?, found]
  rfl

namespace Token

variable {token : Token} {source tail : List Char}

/-- A spelling is cut off where the token stops. -/
theorem Spelled.first? (spelled : token.Spelled source) (stops : token.Stops tail) :
    first? (source ++ tail) = some ⟨token, source, tail⟩ := by
  cases spelled with
  | blanks nonempty gaps => exact first?_blanks nonempty gaps stops
  | lineFeed => rfl
  | carriageReturn => rfl
  | blockComment apart => exact first?_blockComment apart tail
  | lineComment contents => exact first?_lineComment contents stops
  | @string quote contents source quoted body =>
      refine first?_of_string? quoted ?_
      have again := (stringBody?_eq_some body).2 tail
      rw [string?, if_pos (by simpa using quoted)]
      exact congrArg (Option.map _) again
  | number nonempty digits digits' =>
      exact first?_number (digits?_digitsSource nonempty digits digits' stops.1 stops.2)
  | operator symbol => exact first?_operator symbol stops
  | delimiter symbol => exact first?_delimiter symbol tail
  | @word c cs starts continues =>
      have stop : ∀ d ∈ tail.head?, continuesWord d = false := by
        unfold ofWord at stops
        split at stops <;> exact stops
      exact first?_word (isPlain_of_startsWord starts) continues stop

end Token

/-! ## Texts that are cut into tokens

Each token takes a character at least, so a scan does not run out of rounds. -/

theorem scanWithin_of_first? {cs source rest : List Char} {token : Token}
    (found : first? cs = some ⟨token, source, rest⟩) (fuel : Nat) (p : Position) :
    (Token.scanWithin (fuel + 1) p cs).1 =
      (Token.scanWithin fuel (p.after source) rest).1.map (⟨token, source, p⟩ :: ·) := by
  cases cs with
  | nil => cases found
  | cons c cs => simp only [Token.scanWithin, found]

theorem length_of_first? {cs source rest : List Char} {token : Token}
    (found : first? cs = some ⟨token, source, rest⟩) : rest.length < cs.length := by
  obtain ⟨spelled, rfl⟩ := spelled_of_first? found
  have some := List.length_pos_iff.mpr spelled.ne_nil
  rw [List.length_append]
  omega

theorem scanWithin_behind {cs source rest : List Char} {token : Token} {ts : List Token}
    (found : first? cs = some ⟨token, source, rest⟩) {fuel : Nat} (enough : cs.length ≤ fuel)
    (p : Position) (behind : ∀ {fuel : Nat}, rest.length ≤ fuel → ∀ p, ∃ spans,
      (Token.scanWithin fuel p rest).1 = .ok spans ∧ Expr.significantTokens spans = ts) :
    ∃ spans, (Token.scanWithin fuel p cs).1 = .ok spans ∧
      Expr.significantTokens spans = if token.isSignificant then token :: ts else ts := by
  have shorter := length_of_first? found
  obtain ⟨fuel, rfl⟩ : ∃ more, fuel = more + 1 := ⟨fuel - 1, by omega⟩
  obtain ⟨spans, scanned, rfl⟩ := @behind fuel (by omega) (p.after source)
  refine ⟨⟨token, source, p⟩ :: spans, ?_, ?_⟩
  · rw [scanWithin_of_first? found, scanned]
    rfl
  · cases significant : token.isSignificant <;>
      simp [Expr.significantTokens, Span.significant, significant]

/-- A text that is cut into tokens is scanned. -/
theorem scanWithin_of_scans {cs : List Char} {ts : List Token} (scans : Scans cs ts) {fuel : Nat}
    (enough : cs.length ≤ fuel) (p : Position) :
    ∃ spans, (Token.scanWithin fuel p cs).1 = .ok spans ∧ Expr.significantTokens spans = ts := by
  induction scans generalizing fuel p with
  | nil => exact ⟨[], by cases fuel <;> rfl, rfl⟩
  | seen found significant _ ih =>
      have scanned := scanWithin_behind found enough p ih
      rwa [if_pos significant] at scanned
  | skipped found insignificant _ ih =>
      have scanned := scanWithin_behind found enough p ih
      rwa [if_neg (by simp [insignificant])] at scanned

/-- The characters of each span spell its token. -/
theorem spelled_of_scanWithin {fuel : Nat} {p : Position} {cs : List Char} {spans : List Span}
    (scanned : (Token.scanWithin fuel p cs).1 = .ok spans) :
    ∀ span ∈ spans, span.token.Spelled span.source := by
  induction spans generalizing fuel p cs with
  | nil => nofun
  | cons span spans ih =>
      obtain ⟨-, eq⟩ | ⟨more, token, source, rest, later, found, eq, behind⟩ :=
        scanWithin_ok_inv scanned
      · cases eq
      · cases eq
        exact List.forall_mem_cons.mpr ⟨(spelled_of_first? found).1, ih behind⟩

/-- A text is cut into tokens exactly where it is scanned, and into the same ones. -/
theorem scans_iff {cs : List Char} {ts : List Token} :
    Scans cs ts ↔ ∃ all, Token.ofText cs = .ok all ∧ Expr.significantTokens all = ts := by
  constructor
  · exact fun scans => scanWithin_of_scans scans (Nat.le_refl _) .start
  · rintro ⟨all, scanned, rfl⟩
    exact scans_of_ofText scanned

instance (cs : List Char) (ts : List Token) : Decidable (Scans cs ts) :=
  decidable_of_iff ((Token.ofText cs).toOption.map Expr.significantTokens = some ts) (by
    rw [scans_iff]
    cases Token.ofText cs <;> simp [Except.toOption])

/-- A text is parsed as what the tokens derive that it is cut into. -/
theorem Expr.ofText_iff_scans {cs : List Char} {e : Expr} :
    ofText cs = .ok e ↔
      ∃ ts, Scans cs ts ∧ Limits.excess? ts = none ∧ Derives .expression ts e := by
  simp only [ofText_ok_iff, scans_iff]
  grind

end Trigger
