import Trigger.Config.Reading
import Trigger.Proofs.Token.Spelling

/-!
# Reading JSON

A text of JSON is written with spaces anywhere between its parts, and with strings and numbers in
any spelling (`IsJson`, `Spells`).  Each reader is followed over what is written for it, in front of
any text that may stand behind: a string is read as what it spells (`string_append`), and a value
that is no setting is skipped as a whole, whatever it is (`IsJson.skipped`).

Behind a number, no digit may stand, and no point or power (`EndsNumber`).  A string in a value that
is skipped may have any words behind `\u` (`IsSkipped`); elsewhere they form characters (`IsWide`).
-/

namespace Trigger.Config.Reader

variable {α β : Type} {cs rest : List Char}

@[simp]
theorem bind_apply (x : Reader α) (f : α → Reader β) (cs : List Char) :
    (x >>= f) cs =
      match x cs with
      | .ok (a, rest) => f a rest
      | .error e => .error e := by
  show (x cs >>= fun p => f p.1 p.2) = _
  cases x cs <;> rfl

@[simp]
theorem map_apply (f : α → β) (x : Reader α) (cs : List Char) :
    (f <$> x) cs =
      match x cs with
      | .ok (a, rest) => .ok (f a, rest)
      | .error e => .error e := by
  show (x cs >>= fun p => pure (f p.1, p.2)) = _
  cases x cs <;> rfl

@[simp] theorem pure_apply (a : α) (cs : List Char) : (pure a : Reader α) cs = .ok (a, cs) := rfl

@[simp]
theorem fail_apply (e : ConfigError) (cs : List Char) : (fail e : Reader α) cs = .error e := rfl

@[simp] theorem next_cons (c : Char) (cs : List Char) : next (c :: cs) = .ok (c, cs) := rfl

@[simp] theorem peek_cons (c : Char) (cs : List Char) : peek (c :: cs) = .ok (c, c :: cs) := rfl

@[simp] theorem peek?_apply (cs : List Char) : peek? cs = .ok (cs.head?, cs) := rfl

@[simp] theorem remaining_apply (cs : List Char) : remaining cs = .ok (cs.length, cs) := rfl

/-! ## Spaces and words -/

/-- Nothing but spaces. -/
abbrev Space := { space : List Char // space.all isSpace = true }

/-- No spaces. -/
def Space.none : Space := ⟨[], rfl⟩

theorem dropWhile_space (space : Space) (part : ∀ c ∈ rest.head?, isSpace c = false) :
    (space.1 ++ rest).dropWhile isSpace = rest :=
  (takeWhile_append_of_stop space.2 part).2

@[simp]
theorem skipSpace_apply (cs : List Char) : skipSpace cs = .ok ((), cs.dropWhile isSpace) := rfl

@[simp]
theorem peekPart_space (space : Space) {c : Char} (part : isSpace c = false) (rest : List Char) :
    peekPart (space.1 ++ c :: rest) = .ok (c, c :: rest) := by
  have skipped : (space.1 ++ c :: rest).dropWhile isSpace = c :: rest :=
    dropWhile_space space (by rintro _ ⟨⟩; exact part)
  simp [peekPart, skipped]

theorem expect_append (word rest : List Char) : expect word (word ++ rest) = .ok ((), rest) := by
  induction word with
  | nil => rfl
  | cons c word ih => simp [expect, ih]

/-! ## Strings -/

/-- Four hexadecimal digits write a word. -/
inductive IsWord : List Char → Nat → Prop
  | digits {a b c d : Char} {w x y z : Nat} (first : hexValue? a = some w)
      (second : hexValue? b = some x) (third : hexValue? c = some y)
      (fourth : hexValue? d = some z) : IsWord [a, b, c, d] (((w * 16 + x) * 16 + y) * 16 + z)

/-- What stands behind `\u` for a character: a word, or a pair of them. -/
inductive IsWide : Char → List Char → Prop
  | word {source : List Char} {w : Nat} (word : IsWord source w) (single : isLowWord w = false)
      (single' : isHighWord w = false) : IsWide (Char.ofNat w) source
  | pair {source source' : List Char} {w w' : Nat} (word : IsWord source w)
      (word' : IsWord source' w') (high : isHighWord w = true) (low : isLowWord w' = true) :
      IsWide (Char.ofNat ((w - 0xD800) * 0x400 + (w' - 0xDC00) + 0x10000))
        (source ++ '\\' :: 'u' :: source')

/-- What stands behind `\u` in a string that is skipped: a word. -/
inductive IsSkipped : Char → List Char → Prop
  | word {source : List Char} {w : Nat} (word : IsWord source w) : IsSkipped ' ' source

/-- A character of a string is written as it is, by a letter behind a backslash, or by `\u` and what
is given to stand there. -/
inductive SpellsChar (wide : Char → List Char → Prop) : Char → List Char → Prop
  | shown {c : Char} (shown : 0x20 ≤ c.toNat) (quote : c ≠ '"') (backslash : c ≠ '\\') :
      SpellsChar wide c [c]
  | letter {c e : Char} (short : shortEscape? e = some c) : SpellsChar wide c ['\\', e]
  | wide {c : Char} {source : List Char} (writes : wide c source) :
      SpellsChar wide c ('\\' :: 'u' :: source)

/-- The characters of a string are written one after the other. -/
inductive Spells (wide : Char → List Char → Prop) : List Char → List Char → Prop
  | nil : Spells wide [] []
  | cons {c : Char} {contents source more : List Char} (char : SpellsChar wide c source)
      (chars : Spells wide contents more) : Spells wide (c :: contents) (source ++ more)

theorem word_append {source : List Char} {w : Nat} (isWord : IsWord source w) (rest : List Char) :
    word (source ++ rest) = .ok (w, rest) := by
  cases isWord with
  | @digits a b c d _ _ _ _ first second third fourth =>
      have enough : ¬ byteCount (a :: b :: c :: d :: rest) < 4 := by
        have := a.utf8Size_pos
        have := b.utf8Size_pos
        have := c.utf8Size_pos
        have := d.utf8Size_pos
        simp only [byteCount, List.foldr_cons]
        omega
      simp only [word, List.cons_append, List.nil_append, if_neg enough, first, second, third,
        fourth]

theorem wideChar_append {c : Char} {source : List Char} (isWide : IsWide c source)
    (rest : List Char) : wideChar (source ++ rest) = .ok (c, rest) := by
  cases isWide with
  | word isWord single single' => simp [wideChar, word_append isWord, single, single']
  | @pair source source' w w' isWord isWord' high low =>
      have single : isLowWord w = false := by
        simp only [isHighWord, isLowWord, Bool.and_eq_true, Bool.and_eq_false_iff,
          decide_eq_true_eq, decide_eq_false_iff_not] at high ⊢
        omega
      have between : expect ['\\', 'u'] ('\\' :: 'u' :: (source' ++ rest)) =
          .ok ((), source' ++ rest) := expect_append ['\\', 'u'] _
      simp [wideChar, word_append isWord, word_append isWord', single, high, low, between]

/-- A string is read up to its closing quote. -/
theorem stringBody_append {wide : Char → List Char → Prop} {reader : Reader Char}
    (reads : ∀ {c source}, wide c source → ∀ rest, reader (source ++ rest) = .ok (c, rest))
    {contents source : List Char} (spells : Spells wide contents source) (fuel : Nat)
    (enough : source.length < fuel) (rest : List Char) :
    stringBody reader fuel (source ++ '"' :: rest) = .ok (contents, rest) := by
  induction spells generalizing fuel with
  | nil =>
      obtain ⟨fuel, rfl⟩ := Nat.exists_eq_add_of_lt enough
      rfl
  | @cons c contents source more char chars ih =>
      rw [List.length_append] at enough
      obtain ⟨fuel, rfl⟩ : ∃ n, fuel = n + 1 := ⟨fuel - 1, by omega⟩
      have pos : 0 < source.length := by cases char <;> exact Nat.succ_pos _
      have behind := ih fuel (by omega)
      cases char with
      | shown shown quote backslash =>
          simp [stringBody, quote, backslash, Nat.not_lt.mpr shown, behind]
      | letter short => simp [stringBody, short, behind]
      | wide writes => simp [stringBody, shortEscape?, reads writes, behind]

theorem string_append {contents source : List Char} (spells : Spells IsWide contents source)
    (rest : List Char) : string (source ++ '"' :: rest) = .ok (String.ofList contents, rest) := by
  have enough : source.length < (source ++ '"' :: rest).length + 1 := by
    rw [List.length_append]
    omega
  have read := stringBody_append (fun isWide => wideChar_append isWide) spells _ enough rest
  simp only [string, bind_apply, remaining_apply, read, pure_apply]

theorem skipString_append {contents source : List Char} (spells : Spells IsSkipped contents source)
    (rest : List Char) : skipString (source ++ '"' :: rest) = .ok ((), rest) := by
  have skips {c : Char} {source : List Char} (skipped : IsSkipped c source) (rest : List Char) :
      (do let _ ← word; return ' ' : Reader Char) (source ++ rest) = .ok (c, rest) := by
    cases skipped with
    | word isWord => simp [word_append isWord]
  have enough : source.length < (source ++ '"' :: rest).length + 1 := by
    rw [List.length_append]
    omega
  have read := stringBody_append skips spells _ enough rest
  simp only [skipString, bind_apply, remaining_apply, read, pure_apply]

/-! ## Numbers -/

/-- The digits in front of a point: no zero stands in front of another digit. -/
inductive IsWhole : List Char → Prop
  | zero : IsWhole ['0']
  | digits {d : Char} {ds : List Char} (front : d ≠ '0')
      (digits : (d :: ds).all Char.isDigit = true) : IsWhole (d :: ds)

/-- A point with digits, or nothing. -/
inductive IsFraction : List Char → Prop
  | nil : IsFraction []
  | digits {d : Char} {ds : List Char} (digits : (d :: ds).all Char.isDigit = true) :
      IsFraction ('.' :: d :: ds)

/-- A power of ten, or nothing. -/
inductive IsPower : List Char → Prop
  | nil : IsPower []
  | digits {mark d : Char} {sign ds : List Char} (isMark : mark = 'e' ∨ mark = 'E')
      (isSign : sign ∈ [[], ['+'], ['-']]) (digits : (d :: ds).all Char.isDigit = true) :
      IsPower (mark :: (sign ++ d :: ds))

/-- The text does not go on with digits. -/
def EndsDigits (rest : List Char) : Prop := ∀ c ∈ rest.head?, c.isDigit = false

/-- The text does not go on with a number. -/
def EndsNumber (rest : List Char) : Prop :=
  EndsDigits rest ∧ ∀ c ∈ rest.head?, c ≠ '.' ∧ c ≠ 'e' ∧ c ≠ 'E'

theorem digits_append {ds : List Char} (all : ds.all Char.isDigit = true) (ends : EndsDigits rest) :
    digits (ds ++ rest) = .ok (ds, rest) :=
  congrArg Except.ok (spanDigits_append_of_stop all ends)

theorem whole_append {source : List Char} (isWhole : IsWhole source) (ends : EndsDigits rest) :
    whole (source ++ rest) = .ok (source, rest) := by
  cases isWhole with
  | zero =>
      have none : digits rest = .ok ([], rest) := @digits_append rest [] rfl ends
      simp [whole, none]
  | @digits d ds front all =>
      obtain ⟨digit, all⟩ := Bool.and_eq_true_iff.mp all
      simp [whole, digits_append all ends, digit, front]

theorem fraction_append {d : Char} {ds : List Char} (all : (d :: ds).all Char.isDigit = true)
    (ends : EndsDigits rest) : fraction (d :: (ds ++ rest)) = .ok (d :: ds, rest) := by
  have digit : d.isDigit = true := (Bool.and_eq_true_iff.mp all).1
  have read : digits (d :: (ds ++ rest)) = .ok (d :: ds, rest) := digits_append all ends
  simp [fraction, digit, read]

theorem power_append {d : Char} {sign ds : List Char} (isSign : sign ∈ [[], ['+'], ['-']])
    (all : (d :: ds).all Char.isDigit = true) (ends : EndsDigits rest) :
    ∃ p, power (sign ++ d :: (ds ++ rest)) = .ok (p, rest) := by
  have digit : d.isDigit = true := (Bool.and_eq_true_iff.mp all).1
  have unsigned : d ≠ '+' ∧ d ≠ '-' := by
    constructor <;> rintro rfl <;> cases digit
  have read : digits (d :: (ds ++ rest)) = .ok (d :: ds, rest) := digits_append all ends
  simp only [List.mem_cons, List.not_mem_nil, or_false] at isSign
  rcases isSign with rfl | rfl | rfl <;> simp [power, digit, unsigned, read]

/-- A number is skipped as a whole. -/
theorem skipNumber_append {digits fraction power : List Char} (isWhole : IsWhole digits)
    (isFraction : IsFraction fraction) (isPower : IsPower power) (ends : EndsNumber rest) :
    skipNumber (digits ++ (fraction ++ (power ++ rest))) = .ok ((), rest) := by
  have endsFraction : EndsDigits (power ++ rest) := by
    cases isPower with
    | nil => exact ends.1
    | digits isMark => rcases isMark with rfl | rfl <;> rintro _ ⟨⟩ <;> rfl
  have endsWhole : EndsDigits (fraction ++ (power ++ rest)) := by
    cases isFraction with
    | nil => exact endsFraction
    | digits => rintro _ ⟨⟩; rfl
  have readWhole := whole_append isWhole endsWhole
  have others : rest.head? ≠ some '.' ∧ rest.head? ≠ some 'e' ∧ rest.head? ≠ some 'E' :=
    ⟨fun point => (ends.2 _ point).1 rfl, fun mark => (ends.2 _ mark).2.1 rfl,
      fun mark => (ends.2 _ mark).2.2 rfl⟩
  cases isPower with
  | nil => cases isFraction with
    | nil =>
        simp only [List.nil_append] at readWhole ⊢
        simp [skipNumber, strictly, readWhole, others]
    | digits all =>
        have readFraction := fraction_append all endsFraction
        simp only [List.nil_append, List.cons_append] at readWhole readFraction ⊢
        simp [skipNumber, strictly, readWhole, readFraction, others]
  | @digits mark d sign ds isMark isSign digits =>
      obtain ⟨p, readPower⟩ := power_append isSign digits ends.1
      have unpointed : mark ≠ '.' := by rcases isMark with rfl | rfl <;> decide
      cases isFraction with
      | nil =>
          simp only [List.nil_append, List.cons_append, List.append_assoc] at readWhole ⊢
          simp [skipNumber, strictly, readWhole, readPower, unpointed, isMark]
      | digits all =>
          have readFraction := fraction_append all endsFraction
          simp only [List.cons_append, List.append_assoc] at readWhole readFraction ⊢
          simp [skipNumber, strictly, readWhole, readFraction, readPower, isMark]

/-! ## Skipped values -/

/-- What a text of JSON is: a value, or what is left of a list or of an object from an item on. -/
inductive Piece where
  | value
  | items
  | fields

/-- A field with the given key and value, and what is behind it. -/
def fieldSource (before behind : Space) (key value rest : List Char) : List Char :=
  '"' :: (key ++ '"' :: (before.1 ++ ':' :: (behind.1 ++ (value ++ rest))))

/-- A text of JSON, with spaces anywhere between its parts. -/
inductive IsJson : Piece → List Char → Prop
  | null : IsJson .value ['n', 'u', 'l', 'l']
  | boolean (b : Bool) : IsJson .value (truth b)
  | number {whole fraction power : List Char} (isWhole : IsWhole whole)
      (isFraction : IsFraction fraction) (isPower : IsPower power) :
      IsJson .value (whole ++ (fraction ++ power))
  | negative {whole fraction power : List Char} (isWhole : IsWhole whole)
      (isFraction : IsFraction fraction) (isPower : IsPower power) :
      IsJson .value ('-' :: (whole ++ (fraction ++ power)))
  | string {contents source : List Char} (spells : Spells IsSkipped contents source) :
      IsJson .value ('"' :: (source ++ ['"']))
  | emptyList (space : Space) : IsJson .value ('[' :: (space.1 ++ [']']))
  | list (space : Space) {source : List Char} (items : IsJson .items source) :
      IsJson .value ('[' :: (space.1 ++ source))
  | emptyObject (space : Space) : IsJson .value ('\x7b' :: (space.1 ++ ['\x7d']))
  | object (space : Space) {source : List Char} (fields : IsJson .fields source) :
      IsJson .value ('\x7b' :: (space.1 ++ source))
  | lastItem (space : Space) {source : List Char} (value : IsJson .value source) :
      IsJson .items (source ++ (space.1 ++ [']']))
  | item (space space' : Space) {source more : List Char} (value : IsJson .value source)
      (items : IsJson .items more) :
      IsJson .items (source ++ (space.1 ++ ',' :: (space'.1 ++ more)))
  | lastField (before behind space : Space) {key contents source : List Char}
      (spells : Spells IsSkipped contents key) (value : IsJson .value source) :
      IsJson .fields (fieldSource before behind key source (space.1 ++ ['\x7d']))
  | field (before behind space space' : Space) {key contents source more : List Char}
      (spells : Spells IsSkipped contents key) (value : IsJson .value source)
      (fields : IsJson .fields more) :
      IsJson .fields
        (fieldSource before behind key source (space.1 ++ ',' :: (space'.1 ++ more)))

@[simp]
theorem colon_space (space : Space) (rest : List Char) :
    colon (space.1 ++ ':' :: rest) = .ok ((), rest) := by
  simp [colon, isSpace]

/-- Behind a value in a list or an object there are spaces, and then a part. -/
theorem endsNumber_space (space : Space) {c : Char} (part : c = ',' ∨ c = ']' ∨ c = '\x7d')
    (rest : List Char) : EndsNumber (space.1 ++ c :: rest) := by
  have plain : ∀ d, isSpace d = true ∨ (d = ',' ∨ d = ']' ∨ d = '\x7d') →
      d.isDigit = false ∧ d ≠ '.' ∧ d ≠ 'e' ∧ d ≠ 'E' := by
    simp only [isSpace, Bool.or_eq_true, decide_eq_true_eq]
    rintro d ((((rfl | rfl) | rfl) | rfl) | rfl | rfl | rfl) <;> decide
  obtain ⟨space, spaces⟩ := space
  cases space with
  | nil =>
      obtain ⟨digit, others⟩ := plain c (.inr part)
      exact ⟨by rintro _ ⟨⟩; exact digit, by rintro _ ⟨⟩; exact others⟩
  | cons d space =>
      obtain ⟨digit, others⟩ := plain d (.inl (Bool.and_eq_true_iff.mp spaces).1)
      exact ⟨by rintro _ ⟨⟩; exact digit, by rintro _ ⟨⟩; exact others⟩

theorem IsWhole.exists_cons {source : List Char} (isWhole : IsWhole source) :
    ∃ d ds, source = d :: ds ∧ d.isDigit = true := by
  cases isWhole with
  | zero => exact ⟨'0', [], rfl, rfl⟩
  | digits front digits => exact ⟨_, _, rfl, (Bool.and_eq_true_iff.mp digits).1⟩

/-- A piece starts with a part, which ends nothing. -/
theorem IsJson.exists_cons {piece : Piece} {source : List Char} (json : IsJson piece source) :
    ∃ c more, source = c :: more ∧ isSpace c = false ∧ c ≠ ']' ∧ c ≠ '\x7d' := by
  induction json with
  | boolean b => cases b <;> exact ⟨_, _, rfl, by decide⟩
  | number isWhole =>
      obtain ⟨d, ds, rfl, digit⟩ := isWhole.exists_cons
      refine ⟨d, _, rfl, ?_, ?_, ?_⟩
      · cases space : isSpace d with
        | false => rfl
        | true =>
            simp only [isSpace, Bool.or_eq_true, decide_eq_true_eq] at space
            rcases space with ((rfl | rfl) | rfl) | rfl <;> cases digit
      · rintro rfl; cases digit
      · rintro rfl; cases digit
  | lastItem space value ih | item space space' value items ih =>
      obtain ⟨c, more, rfl, part⟩ := ih
      exact ⟨c, _, rfl, part⟩
  | _ => exact ⟨_, _, rfl, by decide⟩

/-- How a piece is skipped, with the given fuel and the given text behind. -/
def Piece.Skipped (fuel : Nat) (source rest : List Char) : Piece → Prop
  | .value => EndsNumber rest → ∀ space : Space,
      skipValue fuel (space.1 ++ (source ++ rest)) = .ok ((), rest)
  | .items => ∀ space : Space, skipItems fuel (space.1 ++ (source ++ rest)) = .ok ((), rest)
  | .fields => ∀ space : Space, skipFields fuel (space.1 ++ (source ++ rest)) = .ok ((), rest)

theorem skipValue_number {whole fraction power : List Char} (isWhole : IsWhole whole)
    (isFraction : IsFraction fraction) (isPower : IsPower power) (ends : EndsNumber rest)
    (space : Space) (fuel : Nat) :
    skipValue (fuel + 1) (space.1 ++ (whole ++ (fraction ++ (power ++ rest)))) =
      .ok ((), rest) := by
  have read := skipNumber_append isWhole isFraction isPower ends
  obtain ⟨d, ds, rfl, digit⟩ := isWhole.exists_cons
  obtain ⟨_, _, ⟨⟩, part, -⟩ := (IsJson.number isWhole isFraction isPower).exists_cons
  have others : d ≠ 'n' ∧ d ≠ 't' ∧ d ≠ 'f' ∧ d ≠ '-' := by
    refine ⟨?_, ?_, ?_, ?_⟩ <;> rintro rfl <;> cases digit
  rw [List.cons_append] at read ⊢
  simp [skipValue, part, others, digit, read]

/-- A piece is skipped as a whole.  A value inside is two calls further down, and the brackets
around it make up for them. -/
theorem IsJson.skipped {piece : Piece} {source : List Char} (json : IsJson piece source)
    (fuel : Nat) (enough : 2 * source.length ≤ fuel + 1) (rest : List Char) :
    piece.Skipped (fuel + 1) source rest := by
  induction json generalizing fuel rest with
  | null =>
      intro ends space
      have word : expect ['n', 'u', 'l', 'l'] ('n' :: 'u' :: 'l' :: 'l' :: rest) = .ok ((), rest) :=
        expect_append _ rest
      simp [skipValue, isSpace, word]
  | boolean b =>
      intro ends space
      have word := expect_append (truth b) rest
      cases b <;> simp [skipValue, isSpace, truth] at word ⊢ <;> exact word
  | number isWhole isFraction isPower =>
      intro ends space
      simp [skipValue_number isWhole isFraction isPower ends]
  | negative isWhole isFraction isPower =>
      intro ends space
      simp [skipValue, isSpace, skipNumber_append isWhole isFraction isPower ends]
  | string spells =>
      intro ends space
      simp [skipValue, isSpace, skipString_append spells]
  | emptyList space =>
      intro ends space'
      simp [skipValue, isSpace]
  | emptyObject space =>
      intro ends space'
      simp [skipValue, isSpace]
  | list space items ih =>
      intro ends space'
      simp only [List.length_cons, List.length_append] at enough
      obtain ⟨fuel, rfl⟩ : ∃ n, fuel = n + 1 := ⟨fuel - 1, by omega⟩
      have read := ih fuel (by omega) rest .none
      obtain ⟨c, more, rfl, part, goesOn, -⟩ := items.exists_cons
      simp only [Space.none, List.nil_append, List.cons_append] at read
      simp [skipValue, isSpace, peekPart_space space part, goesOn, read]
  | object space fields ih =>
      intro ends space'
      simp only [List.length_cons, List.length_append] at enough
      obtain ⟨fuel, rfl⟩ : ∃ n, fuel = n + 1 := ⟨fuel - 1, by omega⟩
      have read := ih fuel (by omega) rest .none
      obtain ⟨c, more, rfl, part, -, goesOn⟩ := fields.exists_cons
      simp only [Space.none, List.nil_append, List.cons_append] at read
      simp [skipValue, isSpace, peekPart_space space part, goesOn, read]
  | lastItem space value ih =>
      intro space'
      simp only [List.length_cons, List.length_append] at enough
      obtain ⟨fuel, rfl⟩ : ∃ n, fuel = n + 1 := ⟨fuel - 1, by omega⟩
      have read := ih fuel (by omega) (space.1 ++ ']' :: rest)
        (endsNumber_space space (.inr (.inl rfl)) rest) space'
      simp [skipItems, isSpace, read]
  | @item space space' _ more value items ih ih' =>
      intro space''
      simp only [List.length_cons, List.length_append] at enough
      obtain ⟨fuel, rfl⟩ : ∃ n, fuel = n + 1 := ⟨fuel - 1, by omega⟩
      have read := ih fuel (by omega) (space.1 ++ ',' :: (space'.1 ++ (more ++ rest)))
        (endsNumber_space space (.inl rfl) _) space''
      have read' := ih' fuel (by omega) rest space'
      rw [skipItems]
      simp [isSpace, read, read']
  | lastField before behind space spells value ih =>
      intro space'
      simp only [fieldSource, List.length_cons, List.length_append] at enough
      obtain ⟨fuel, rfl⟩ : ∃ n, fuel = n + 1 := ⟨fuel - 1, by omega⟩
      have read := ih fuel (by omega) (space.1 ++ '\x7d' :: rest)
        (endsNumber_space space (.inr (.inr rfl)) rest) behind
      simp [skipFields, fieldSource, isSpace, skipString_append spells, read]
  | @field before behind space space' _ _ _ more spells value fields ih ih' =>
      intro space''
      simp only [fieldSource, List.length_cons, List.length_append] at enough
      obtain ⟨fuel, rfl⟩ : ∃ n, fuel = n + 1 := ⟨fuel - 1, by omega⟩
      have read := ih fuel (by omega) (space.1 ++ ',' :: (space'.1 ++ (more ++ rest)))
        (endsNumber_space space (.inl rfl) _) behind
      have read' := ih' fuel (by omega) rest space'
      rw [skipFields]
      simp [fieldSource, isSpace, skipString_append spells, read, read']

end Trigger.Config.Reader
