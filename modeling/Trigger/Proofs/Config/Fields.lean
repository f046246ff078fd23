import Trigger.Proofs.Config.Json

/-!
# Settings and their texts

Settings are fields between braces, in any order, with spaces anywhere between the parts and strings
in any spelling (`Written`).  A text like that is read as its fields say, one after the other, with
the default for each setting that has no field; a field that is not known says nothing, whatever its
value is.  The text is unfit exactly if a setting has two fields (`ofText_of_written`).  So an
object without fields gives the defaults, and settings that are written out are read back
(`ofText_asText`).
-/

namespace Trigger.Config

/-! ## Fields -/

open Reader

/-- The keys of the settings. -/
def keys : List String := ["specialization", "subject_name", "memoize_parse_failures"]

/-- A field of a text of settings. -/
inductive Field where
  | specialization (value : Bool)
  | subjectName (value : String)
  | keepsFailures (value : Bool)
  /-- A field that is not known. -/
  | other (key : String) (unknown : key ∉ keys)

namespace Field

def key : Field → String
  | specialization _ => "specialization"
  | subjectName _ => "subject_name"
  | keepsFailures _ => "memoize_parse_failures"
  | other key _ => key

/-- Whether two fields are not of one setting. -/
def Apart (f g : Field) : Prop := f.key = g.key → f.key ∉ keys

/-- What is written for the value of a field.  A field that is not known may have any value. -/
inductive Value : Field → List Char → Prop
  | specialization (value : Bool) : Value (.specialization value) (truth value)
  | subjectName {value : String} {source : List Char} (spells : Spells IsWide value.toList source) :
      Value (.subjectName value) ('"' :: (source ++ ['"']))
  | keepsFailures (value : Bool) : Value (.keepsFailures value) (truth value)
  | other {key : String} {source : List Char} (unknown : key ∉ keys)
      (json : IsJson .value source) : Value (.other key unknown) source

/-- Fields one after the other, with spaces anywhere between the parts, and the end of the object.
-/
inductive Written : List Field → List Char → Prop
  | last (before behind space : Space) {f : Field} {key source : List Char}
      (spells : Spells IsWide f.key.toList key) (value : f.Value source) :
      Written [f] (fieldSource before behind key source (space.1 ++ ['\x7d']))
  | cons (before behind space space' : Space) {f : Field} {fs : List Field}
      {key source more : List Char} (spells : Spells IsWide f.key.toList key)
      (value : f.Value source) (written : Written fs more) :
      Written (f :: fs)
        (fieldSource before behind key source (space.1 ++ ',' :: (space'.1 ++ more)))

end Field

/-- The fields between braces, and spaces around it all. -/
inductive Written : List Field → List Char → Prop
  | empty (before space behind : Space) :
      Written [] (before.1 ++ '\x7b' :: (space.1 ++ '\x7d' :: behind.1))
  | fields (before space behind : Space) {fs : List Field} {source : List Char}
      (written : Field.Written fs source) :
      Written fs (before.1 ++ '\x7b' :: (space.1 ++ (source ++ behind.1)))

namespace Draft

/-- Whether the setting of a field has been read. -/
def has (d : Draft) : Field → Bool
  | .specialization _ => d.specialization.isSome
  | .subjectName _ => d.subjectName.isSome
  | .keepsFailures _ => d.keepsFailures.isSome
  | .other _ _ => false

/-- The draft with what a field says. -/
def put (d : Draft) : Field → Draft
  | .specialization value => { d with specialization := some value }
  | .subjectName value => { d with subjectName := some value }
  | .keepsFailures value => { d with keepsFailures := some value }
  | .other _ _ => d

/-- The draft with what some fields say, if it has none of their settings and they are apart. -/
def putAll? (d : Draft) : List Field → Option Draft
  | [] => some d
  | f :: fs => if d.has f then none else (d.put f).putAll? fs

theorem has_put (d : Draft) (f g : Field) :
    (d.put f).has g = false ↔ d.has g = false ∧ f.Apart g := by
  cases f <;> cases g <;> grind [put, has, Field.Apart, Field.key, keys]

theorem putAll?_eq (d : Draft) (fs : List Field) :
    ((∀ f ∈ fs, d.has f = false) ∧ fs.Pairwise Field.Apart → d.putAll? fs = some (fs.foldl put d)) ∧
    (¬ ((∀ f ∈ fs, d.has f = false) ∧ fs.Pairwise Field.Apart) → d.putAll? fs = none) := by
  induction fs generalizing d with
  | nil => simp [putAll?]
  | cons f fs ih =>
      have ih := ih (d.put f)
      simp only [has_put] at ih
      cases has : d.has f with
      | true => simp [putAll?, has]
      | false =>
          simp only [putAll?, has, List.foldl_cons, List.pairwise_cons, List.forall_mem_cons]
          grind

end Draft

namespace Reader

theorem boolean_space (space : Space) (b : Bool) (rest : List Char) :
    boolean (space.1 ++ (truth b ++ rest)) = .ok (b, rest) := by
  have word := expect_append (truth b) rest
  cases b <;> simp [boolean, isSpace, truth] at word ⊢ <;> simp [word]

theorem text_space (space : Space) {contents source : List Char}
    (spells : Spells IsWide contents source) (rest : List Char) :
    text (space.1 ++ '"' :: (source ++ '"' :: rest)) = .ok (String.ofList contents, rest) := by
  simp [text, isSpace, string_append spells]

/-- A field whose setting has been read is unfit, whatever is behind its key. -/
theorem field_of_has {d : Draft} {f : Field} (has : d.has f = true) (cs : List Char) :
    field d f.key cs = .error .unfit := by
  cases f with
  | other => cases has
  | _ => simp_all [field, Field.key, Draft.has, once]

theorem field_append {d : Draft} {f : Field} (new : d.has f = false) (before behind : Space)
    {source : List Char} (value : f.Value source) (ends : EndsNumber rest) :
    field d f.key (before.1 ++ ':' :: (behind.1 ++ (source ++ rest))) = .ok (d.put f, rest) := by
  cases value with
  | specialization value | keepsFailures value =>
      simp only [Draft.has] at new
      simp [field, Field.key, once, new, boolean_space, Draft.put]
  | subjectName spells =>
      simp only [Draft.has] at new
      simp [field, Field.key, once, new, text_space behind spells, Draft.put]
  | other unknown json =>
      simp only [keys, List.mem_cons, List.not_mem_nil, or_false, not_or] at unknown
      have enough : 2 * source.length ≤ 2 * (behind.1 ++ (source ++ rest)).length + 1 + 1 := by
        rw [List.length_append, List.length_append]
        omega
      have skipped := json.skipped _ enough rest ends behind
      simp only [field, Field.key, unknown, ↓reduceIte, bind_apply, colon_space, remaining_apply,
        skipped, pure_apply, Draft.put]

theorem fields_append {fs : List Field} {source : List Char} (written : Field.Written fs source)
    (fuel : Nat) (enough : source.length ≤ fuel) (d : Draft) (space : Space) (rest : List Char) :
    fields d fuel (space.1 ++ (source ++ rest)) =
      match d.putAll? fs with
      | some d => .ok (d, rest)
      | none => .error .unfit := by
  induction written generalizing d fuel space with
  | @last before behind space' f key source spells value =>
      simp only [fieldSource, List.length_cons] at enough
      obtain ⟨fuel, rfl⟩ : ∃ n, fuel = n + 1 := ⟨fuel - 1, by omega⟩
      have readKey := string_append spells
      rw [fields, fieldSource, Draft.putAll?]
      cases has : d.has f with
      | true => simp [isSpace, readKey, field_of_has has]
      | false =>
          have read := field_append has before behind value
            (endsNumber_space space' (.inr (.inr rfl)) rest)
          simp [isSpace, readKey, read, Draft.putAll?]
  | @cons before behind space' space'' f fs key source more spells value written ih =>
      simp only [fieldSource, List.length_cons, List.length_append] at enough
      obtain ⟨fuel, rfl⟩ : ∃ n, fuel = n + 1 := ⟨fuel - 1, by omega⟩
      have readKey := string_append spells
      rw [fields, fieldSource, Draft.putAll?]
      cases has : d.has f with
      | true => simp [isSpace, readKey, field_of_has has]
      | false =>
          have read := field_append has before behind value
            (endsNumber_space space' (.inl rfl) (space''.1 ++ (more ++ rest)))
          have read' := ih fuel (by omega) (d.put f) space''
          simp [isSpace, readKey, read, read']

end Reader

/-- Settings that are written as fields, in any order and any spelling, are read as the fields say,
with the default for each setting that has no field; unless a setting has two fields. -/
theorem ofText_of_written {fs : List Field} {cs : List Char} (written : Written fs cs) :
    (fs.Pairwise Field.Apart → ofText cs = .ok (fs.foldl Draft.put {}).config) ∧
    (¬ fs.Pairwise Field.Apart → ofText cs = .error .unfit) := by
  have ended (space : Space) : space.1.dropWhile isSpace = [] := by
    rw [← List.append_nil space.1]
    exact dropWhile_space space nofun
  cases written with
  | empty before space behind =>
      refine ⟨fun _ => ?_, fun apart => absurd .nil apart⟩
      simp [ofText, Reader.config, object, isSpace, ended]
  | @fields before space behind fs source written =>
      obtain ⟨once, twice⟩ := Draft.putAll?_eq {} fs
      have new : ∀ f ∈ fs, Draft.has {} f = false := fun f _ => by cases f <;> rfl
      obtain ⟨more, rfl⟩ : ∃ more, source = '"' :: more := by
        cases written <;> exact ⟨_, rfl⟩
      have enough : ('"' :: more).length ≤ more.length + behind.1.length + 1 + 1 := by
        rw [List.length_cons]
        omega
      have read := fields_append written _ enough {} .none behind.1
      rw [show Space.none.1 = [] from rfl, List.nil_append, List.cons_append] at read
      constructor
      · intro apart
        rw [once ⟨new, apart⟩] at read
        simp [ofText, Reader.config, object, isSpace, read, ended]
      · intro apart
        rw [twice fun all => apart all.2] at read
        simp [ofText, Reader.config, object, isSpace, read]

/-! ## Settings that are written out -/

theorem shortEscape?_of_letter? {c e : Char} (letter : letter? c = some e) :
    shortEscape? e = some c := by
  simp only [letter?, Bool.or_eq_true, decide_eq_true_eq] at letter
  split at letter
  · cases letter
    rename_i quote
    rcases quote with rfl | rfl <;> rfl
  · grind [shortEscape?]

theorem hexValue?_digitChar : ∀ n < 16, hexValue? (Nat.digitChar n) = some n := by decide

theorem spells_escape (c : Char) : SpellsChar IsWide c (escape c) := by
  unfold escape
  split
  · exact .letter (shortEscape?_of_letter? ‹_›)
  · rename_i none
    split
    · rename_i control
      have isWord : IsWord ['0', '0', Nat.digitChar (c.toNat / 16), Nat.digitChar (c.toNat % 16)]
          (((0 * 16 + 0) * 16 + c.toNat / 16) * 16 + c.toNat % 16) :=
        .digits rfl rfl (hexValue?_digitChar _ (by omega)) (hexValue?_digitChar _ (by omega))
      have same : ((0 * 16 + 0) * 16 + c.toNat / 16) * 16 + c.toNat % 16 = c.toNat := by omega
      rw [same] at isWord
      have isWide := IsWide.word isWord (by simp [isLowWord]; omega) (by simp [isHighWord]; omega)
      rw [Char.ofNat_toNat] at isWide
      exact .wide isWide
    · rename_i shown
      refine .shown (Nat.le_of_not_lt shown) ?_ ?_ <;> rintro rfl <;> cases none

theorem spells_flatMap_escape (cs : List Char) : Spells IsWide cs (cs.flatMap escape) := by
  induction cs with
  | nil => exact .nil
  | cons c cs ih => exact .cons (spells_escape c) ih

/-- The keys of the settings are written as they are. -/
theorem spells_key {f : Field} (known : f.key ∈ keys) :
    Spells IsWide f.key.toList f.key.toList := by
  have plain : f.key.toList.all (fun c => 0x20 ≤ c.toNat && c != '"' && c != '\\') = true := by
    simp only [keys, List.mem_cons, List.not_mem_nil, or_false] at known
    rcases known with known | known | known <;> rw [known] <;> rfl
  generalize f.key.toList = cs at plain
  induction cs with
  | nil => exact .nil
  | cons c cs ih =>
      obtain ⟨first, plain⟩ := Bool.and_eq_true_iff.mp plain
      simp only [Bool.and_eq_true, decide_eq_true_eq, bne_iff_ne] at first
      exact .cons (.shown first.1.1 first.1.2 first.2) (ih plain)

/-- Settings that are written out are read back. -/
theorem ofText_asText (c : Config) : ofText c.asText = .ok c := by
  have subject : Field.Value (.subjectName c.subjectName)
      ('"' :: (c.subjectName.toList.flatMap escape ++ ['"'])) :=
    .subjectName (spells_flatMap_escape _)
  have written := Written.fields .none .none .none
    (.cons .none .none .none .none (spells_key (by simp [Field.key, keys]))
      (.specialization c.specialization)
      (.cons .none .none .none .none (spells_key (by simp [Field.key, keys])) subject
        (.last .none .none .none (spells_key (by simp [Field.key, keys]))
          (.keepsFailures c.keepsFailures))))
  have read := (ofText_of_written written).1 (by simp [Field.Apart, Field.key])
  simpa [asText, fieldText, fieldSource, Field.key, Space.none, Draft.put, Draft.config] using read

/-- An object without fields gives the defaults. -/
theorem ofText_empty (before space behind : Space) :
    ofText (before.1 ++ '\x7b' :: (space.1 ++ '\x7d' :: behind.1)) = .ok {} :=
  (ofText_of_written (.empty before space behind)).1 .nil

end Trigger.Config
