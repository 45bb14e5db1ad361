import Mathlib.Computability.RegularExpressions
import SchemaInterfaces.Proofs.Interface.UniqueReading
import SchemaInterfaces.Proofs.SchemaFile

/-!
# Identifiers and quoted keys

The identifiers are the words of a regular language. A field name is written as it is just when the
whole of it is in that language, and else as a string literal from which JSON reads the name again.
No two names are written alike, so the fields of a generated interface, which have the names of
different properties, are written differently too (`keyText_unambiguous`).
-/
namespace SchemaInterfaces

/-! ### The pattern of identifiers -/

/-- The characters from one up to another. -/
def charRange (first last : Char) : List Char :=
  (List.range' first.toNat (last.toNat + 1 - first.toNat)).map Char.ofNat

/-- The characters of `[A-Za-z]`. -/
def letters : List Char := charRange 'A' 'Z' ++ charRange 'a' 'z'

/-- The characters of `[0-9]`. -/
def digits : List Char := charRange '0' '9'

/-- One of the characters. -/
def oneOf (chars : List Char) : RegularExpression Char := (chars.map .char).sum

/-- One of the first characters, then any number of the others. -/
def wordPattern (first others : List Char) : RegularExpression Char :=
  oneOf first * (oneOf others).star

/-- The characters of `[A-Za-z0-9_$]`. -/
def identifierChars : List Char := letters ++ digits ++ ['_', '$']

/-- The pattern `[A-Za-z_$][A-Za-z0-9_$]*`. -/
def identifierPattern : RegularExpression Char :=
  wordPattern (letters ++ ['_', '$']) identifierChars

theorem mem_oneOf (chars word : List Char) :
    word ∈ (oneOf chars).matches' ↔ ∃ c ∈ chars, word = [c] := by
  rw [oneOf]
  induction chars with
  | nil => simp
  | cons c chars ih =>
    rw [List.map_cons, List.sum_cons, RegularExpression.matches'_add, Language.mem_add, ih,
      RegularExpression.matches'_char, List.exists_mem_cons_iff]
    rfl

theorem mem_oneOf_star (chars word : List Char) :
    word ∈ (oneOf chars).star.matches' ↔ ∀ c ∈ word, c ∈ chars := by
  rw [RegularExpression.matches'_star, Language.mem_kstar]
  constructor
  · rintro ⟨parts, rfl, each⟩ c member
    obtain ⟨part, listed, inside⟩ := List.mem_flatten.mp member
    obtain ⟨d, known, rfl⟩ := (mem_oneOf chars part).mp (each part listed)
    rwa [List.mem_singleton.mp inside]
  · intro known
    have whole : word = (word.map fun c => [c]).flatten := by
      rw [← List.flatMap_def, List.flatMap_singleton']
    refine ⟨_, whole, ?_⟩
    intro part listed
    obtain ⟨c, member, rfl⟩ := List.mem_map.mp listed
    exact (mem_oneOf chars [c]).mpr ⟨c, known c member, rfl⟩

theorem mem_wordPattern (first others word : List Char) :
    word ∈ (wordPattern first others).matches' ↔
      ∃ c rest, word = c :: rest ∧ c ∈ first ∧ ∀ d ∈ rest, d ∈ others := by
  rw [wordPattern, RegularExpression.matches'_mul, Language.mem_mul]
  constructor
  · rintro ⟨front, one, rest, others, rfl⟩
    obtain ⟨c, known, rfl⟩ := (mem_oneOf _ front).mp one
    exact ⟨c, rest, rfl, known, (mem_oneOf_star _ rest).mp others⟩
  · rintro ⟨c, rest, rfl, known, others⟩
    exact ⟨[c], (mem_oneOf _ [c]).mpr ⟨c, known, rfl⟩, rest, (mem_oneOf_star _ rest).mpr others,
      rfl⟩

/-! ### The words of the pattern -/

/-- Below the surrogates every number is that of a character. -/
theorem mem_charRange {first last : Char} (plain : last.toNat < 0xD800) (c : Char) :
    c ∈ charRange first last ↔ first ≤ c ∧ c ≤ last := by
  have bounds : first ≤ c ∧ c ≤ last ↔ first.toNat ≤ c.toNat ∧ c.toNat ≤ last.toNat := Iff.rfl
  rw [charRange, List.mem_map, bounds]
  constructor
  · rintro ⟨n, inRange, rfl⟩
    rw [List.mem_range'_1] at inRange
    have valid : n.isValidChar := .inl (by omega)
    have number : (Char.ofNat n).toNat = n := by
      rw [Char.ofNat, dif_pos valid]
      rfl
    omega
  · intro between
    refine ⟨c.toNat, ?_, Char.ofNat_toNat c⟩
    rw [List.mem_range'_1]
    omega

theorem isAlpha_iff (c : Char) : c.isAlpha = true ↔ c ∈ letters := by
  have ranges : c.isAlpha =
      (decide ('A'.val ≤ c.val ∧ c.val ≤ 'Z'.val) ||
        decide ('a'.val ≤ c.val) && decide (c.val ≤ 'z'.val)) := rfl
  rw [letters, List.mem_append, mem_charRange (by decide), mem_charRange (by decide), ranges]
  simp [Char.le_def]

theorem isDigit_iff (c : Char) : c.isDigit = true ↔ c ∈ digits := by
  rw [digits, mem_charRange (by decide)]
  simp [Char.isDigit, Char.le_def]

theorem isIdentifierStart_iff (c : Char) :
    isIdentifierStart c = true ↔ c ∈ letters ++ ['_', '$'] := by
  simp [isIdentifierStart, isAlpha_iff, or_assoc]

theorem isIdentifierPart_iff (c : Char) : isIdentifierPart c = true ↔ c ∈ identifierChars := by
  rw [isIdentifierPart, Bool.or_eq_true, isIdentifierStart_iff, isDigit_iff, identifierChars]
  simp only [List.mem_append]
  exact or_right_comm

theorem isIdentifier_iff (word : List Char) :
    isIdentifier word = true ↔ word ∈ identifierPattern.matches' := by
  rw [identifierPattern, mem_wordPattern]
  cases word with
  | nil => simp [isIdentifier]
  | cons c rest =>
    rw [isIdentifier, Bool.and_eq_true, List.all_eq_true, isIdentifierStart_iff]
    simp [isIdentifierPart_iff]

/-! ### Names as they are written -/

theorem keyText_of_isIdentifier {name : String} (h : isIdentifier name.toList = true) :
    keyText name = name := by
  rw [keyText, if_pos h]

theorem keyText_of_not_isIdentifier {name : String} (h : ¬ isIdentifier name.toList = true) :
    keyText name = Json.quoted name := by
  rw [keyText, if_neg h]

/-- A quoted text is longer than the text. -/
theorem quoted_ne (name : String) : Json.quoted name ≠ name := by
  intro same
  have lengths := congrArg (fun text => text.toList.length) same
  have inside := Json.length_le_flatMap_escape name.toList
  simp only [Json.toList_quoted, List.length_cons, List.length_append] at lengths
  omega

theorem keyText_eq_self_iff (name : String) :
    keyText name = name ↔ isIdentifier name.toList = true := by
  constructor
  · intro same
    by_contra other
    rw [keyText_of_not_isIdentifier other] at same
    exact quoted_ne name same
  · exact keyText_of_isIdentifier

theorem le_toNat_of_mem_quoted {name : String} {c : Char}
    (member : c ∈ (Json.quoted name).toList) : 0x20 ≤ c.toNat := by
  rw [Json.toList_quoted, List.mem_cons, List.mem_append, List.mem_singleton] at member
  rcases member with rfl | inside | rfl
  · decide
  · obtain ⟨d, _, written⟩ := List.mem_flatMap.mp inside
    exact Json.le_toNat_of_mem_escape written
  · decide

theorem read_quoted (name : String) : Format.read (Json.quoted name) .json = .ok (.text name) := by
  have text : Json.write (.text name) = Json.quoted name := by rw [Json.write]
  have read : Json.read (Json.quoted name) = .ok (.text name) := by
    rw [← text]
    exact Json.read_write (Nat.zero_le _) rfl rfl
  rw [Format.read, read]
  rfl

/-- Names are told apart by the tokens that they are written as. -/
theorem keyText_injective : Function.Injective keyText := by
  intro first second same
  have ends : EndsWord [] := by simp [EndsWord]
  have token (name : String) : tokens (keyText name).toList = [keyToken name] := by
    simpa [tokens, Scanner.run, Scanner.finish] using tokens_keyText name ends
  have tokens := congrArg (fun text => SchemaInterfaces.tokens text.toList) same
  simp only [token] at tokens
  exact keyToken_injective (List.singleton_inj.mp tokens)

/-- The names of the fields as they are written. -/
def Interface.writtenKeys (declared : Interface) : List String :=
  declared.fields.map fun field => keyText field.name

theorem nodup_writtenKeys {entries : List (String × Document)} (distinct : DistinctKeys entries)
    {declared : Interface} (member : .interface declared ∈ Hoisted.statements entries) :
    declared.writtenKeys.Nodup := by
  obtain ⟨path, definition, found, names⟩ := (inSourceOrder distinct).inInterface declared member
  have inside := DistinctKeys.properties (definitionAt?_hasDistinctKeys distinct found)
  have written : declared.writtenKeys = (definition.properties.map Prod.fst).map keyText := by
    rw [← names, List.map_map]
    rfl
  rw [written]
  exact inside.nodup.map keyText_injective

/-- A name is written as it is just when all of it is an identifier, and else as a literal without
control characters that JSON reads as the name. Different names, and so the fields of one generated
interface, are written differently. -/
theorem keyText_unambiguous :
    (∀ name : String, keyText name = name ↔ name.toList ∈ identifierPattern.matches') ∧
    (∀ name : String, name.toList ∉ identifierPattern.matches' →
      (∃ inside, keyText name = "\"" ++ inside ++ "\"") ∧
      (∀ c ∈ (keyText name).toList, 0x20 ≤ c.toNat) ∧
      Format.read (keyText name) .json = .ok (.text name)) ∧
    Function.Injective keyText ∧
    ∀ entries : List (String × Document), DistinctKeys entries →
      ∀ declared, .interface declared ∈ Hoisted.statements entries →
        declared.writtenKeys.Nodup := by
  refine ⟨fun name => ?_, fun name other => ?_, keyText_injective,
    fun entries distinct declared member => nodup_writtenKeys distinct member⟩
  · rw [keyText_eq_self_iff, isIdentifier_iff]
  · rw [← isIdentifier_iff] at other
    rw [keyText_of_not_isIdentifier other]
    exact ⟨⟨_, rfl⟩, fun c member => le_toNat_of_mem_quoted member, read_quoted name⟩

/-- A schema whose keys are an identifier, the same with a line feed behind it, the same in quotes,
and one that looks like what the second of them is written as. -/
def quotedSchema : List (String × Document) := [
  ("context", objectWith [
    ("a", typed "string"), ("a\n", typed "string"), ("\"a\"", typed "string"),
    ("\"a\\n\"", typed "string")])]

theorem keyText_unambiguous_quoted :
    keyText "a\n" ≠ "a\n" ∧ Format.read (keyText "a\n") .json = .ok (.text "a\n") ∧
      DistinctKeys quotedSchema ∧
      ∀ declared, .interface declared ∈ Hoisted.statements quotedSchema →
        declared.writtenKeys.Nodup := by
  obtain ⟨plain, quoted, _, keys⟩ := keyText_unambiguous
  have distinct : DistinctKeys quotedSchema := by decide
  have other : "a\n".toList ∉ identifierPattern.matches' := by
    rw [← isIdentifier_iff]
    decide
  exact ⟨fun same => other ((plain _).mp same), (quoted _ other).2.2, distinct, keys _ distinct⟩

end SchemaInterfaces
