import Mathlib.Data.List.Basic
import SchemaInterfaces.Proofs.Interface.TextTokens

/-!
# Statements read back from their text

Printed statements are told apart by their text, up to descriptions and to where a name in a type
comes from. The tokens of a field are uniquely read from left to right: no mark inside its type is a
semicolon. So are those of an interface, as no field begins with a brace, and those of a statement,
because a keyword of an interface is followed by a word and the name of a field by a colon.
-/
namespace SchemaInterfaces

/-! ### What can be read back -/

/-- A type in which other labels count as names. -/
def FieldType.merged : FieldType → FieldType
  | label name => named name
  | array element => array element.merged
  | primitive kind => primitive kind
  | union values => union values
  | any => any
  | opaqueObject => opaqueObject
  | named name => named name

/-- A field without its description, other labels counted as names. -/
def Field.bare (field : Field) : Field := ⟨field.name, field.type.merged, none⟩

/-- A statement without descriptions, other labels counted as names. -/
def Statement.bare : Statement → Statement
  | interface declared => interface ⟨declared.name, none, declared.fields.map Field.bare⟩
  | field item => field item.bare

/-- The words that types are written with. -/
def typeWords : List String := ["string", "number", "any", "object", "never"]

/-- A name that can stand in a type: an identifier that means no other type. -/
def isTypeName (name : String) : Bool :=
  isIdentifier name.toList && !typeWords.contains name

/-- A statement that declares an identifier and has only type names in its types. -/
def Statement.isWellNamed (statement : Statement) : Bool :=
  statement.declaredName?.all (fun name => isIdentifier name.toList) &&
    statement.typeNames.all isTypeName

/-- Items whose codes can be told apart and cut off from whatever follows: codes with equal
continuations come from items that read alike. -/
def UniquelyRead {α β γ : Type} (code : α → List β) (read : α → γ) (good : α → Prop) : Prop :=
  ∀ a b, good a → good b → ∀ rest rest',
    code a ++ rest = code b ++ rest' → read a = read b ∧ rest = rest'

/-- Sequences of such items are read up to an end that none of them begins. -/
theorem UniquelyRead.flatMap {α β γ : Type} {code : α → List β} {read : α → γ} {good : α → Prop}
    (unique : UniquelyRead code read good) (ends : List β → Prop)
    (apart : ∀ a rest, ¬ ends (code a ++ rest)) {first second : List α}
    (goodFirst : ∀ a ∈ first, good a) (goodSecond : ∀ a ∈ second, good a) {rest rest' : List β}
    (endsFirst : ends rest) (endsSecond : ends rest')
    (same : first.flatMap code ++ rest = second.flatMap code ++ rest') :
    first.map read = second.map read ∧ rest = rest' := by
  induction first generalizing second with
  | nil =>
    cases second with
    | nil => exact ⟨rfl, same⟩
    | cons b second =>
      -- One sequence is over where the other one has an item, which an end rules out.
      rw [List.flatMap_cons, List.append_assoc, List.flatMap_nil, List.nil_append] at same
      exact absurd (same ▸ endsFirst) (apart b _)
  | cons a first ih =>
    cases second with
    | nil =>
      rw [List.flatMap_cons, List.append_assoc, List.flatMap_nil, List.nil_append] at same
      exact absurd (same ▸ endsSecond) (apart a _)
    | cons b second =>
      rw [List.flatMap_cons, List.flatMap_cons, List.append_assoc, List.append_assoc] at same
      obtain ⟨head, same⟩ := unique a b (goodFirst a (.head _)) (goodSecond b (.head _)) _ _ same
      obtain ⟨tail, rests⟩ := ih (fun x member => goodFirst x (.tail _ member))
        (fun x member => goodSecond x (.tail _ member)) same
      exact ⟨by rw [List.map_cons, List.map_cons, head, tail], rests⟩

/-! ### Types -/

theorem literalToken_injective {first second : String}
    (same : literalToken first = literalToken second) : first = second := by
  rw [literalToken, literalToken, Token.literal.injEq] at same
  exact String.toList_injective (Json.flatMap_escape_injective same)

theorem keyToken_injective {first second : String} (same : keyToken first = keyToken second) :
    first = second := by
  unfold keyToken at same
  split at same <;> split at same
  · exact String.toList_injective (Token.word.inj same)
  · cases same
  · cases same
  · exact literalToken_injective same

/-- What a literal token holds. -/
def Token.written? : Token → Option (List Char)
  | literal written => some written
  | word _ | mark _ | unfinished => none

theorem filterMap_unionTokens (values : List String) :
    (unionTokens values).filterMap Token.written? =
      values.map fun value => value.toList.flatMap Json.escape := by
  fun_induction unionTokens values with
  | case1 => rfl
  | case2 value => rfl
  | case3 value values _ ih =>
    simp only [literalToken, Token.written?, List.filterMap_cons, List.map_cons]
    rw [ih]

theorem unionTokens_injective : Function.Injective unionTokens := by
  intro first second same
  have written := congrArg (List.filterMap Token.written?) same
  rw [filterMap_unionTokens, filterMap_unionTokens] at written
  refine List.map_injective_iff.mpr ?_ written
  intro value value' same
  exact String.toList_injective (Json.flatMap_escape_injective same)

theorem mark_mem_unionTokens {values : List String} {c : Char} (h : .mark c ∈ unionTokens values) :
    c = '|' := by
  fun_induction unionTokens values with
  | case1 => simp at h
  | case2 value => simp [literalToken] at h
  | case3 value values _ ih =>
    simp only [literalToken, List.mem_cons, reduceCtorEq, Token.mark.injEq, false_or] at h
    exact h.elim id ih

/-- The only marks in a type are bars and brackets, the brackets those of a list. -/
theorem FieldType.mark_mem_tokens {type : FieldType} {c : Char} (h : .mark c ∈ type.tokens) :
    c = '|' ∨ (c = '[' ∨ c = ']') ∧ ∃ element, type = array element := by
  induction type with
  | primitive kind => cases kind <;> simp [tokens] at h
  | union values => exact .inl (mark_mem_unionTokens h)
  | array element ih =>
    simp only [tokens, List.mem_append, List.mem_cons, Token.mark.injEq, List.not_mem_nil,
      or_false] at h
    rcases h with inside | bracket
    · exact (ih inside).imp id fun found => ⟨found.1, element, rfl⟩
    · exact .inr ⟨bracket, element, rfl⟩
  | any => simp [tokens] at h
  | label name => simp [tokens] at h
  | opaqueObject => simp [tokens] at h
  | named name => simp [tokens] at h

/-- The type that a single word means. -/
def FieldType.ofWord (word : List Char) : FieldType :=
  if word = "string".toList then primitive .text
  else if word = "number".toList then primitive .number
  else if word = "any".toList then any
  else if word = "object".toList then opaqueObject
  else if word = "never".toList then union []
  else named (String.ofList word)

theorem FieldType.ofWord_of_isTypeName {name : String} (h : isTypeName name = true) :
    ofWord name.toList = named name := by
  have free : name ∉ typeWords := by
    intro member
    simp [isTypeName, member] at h
  simp only [typeWords, List.mem_cons, List.not_mem_nil, or_false, not_or] at free
  simp only [ofWord, String.toList_inj, free, if_false, String.ofList_toList]

/-- A type is written as a word that means it, unless it is a union with members or a list. -/
theorem FieldType.tokens_cases (type : FieldType) (names : ∀ name ∈ type.names, isTypeName name) :
    (∃ word, type.tokens = [.word word] ∧ type.merged = ofWord word) ∨
    (∃ value values, type = union (value :: values)) ∨ ∃ element, type = array element := by
  cases type with
  | primitive kind => cases kind <;> exact .inl ⟨_, rfl, rfl⟩
  | union values =>
    cases values with
    | nil => exact .inl ⟨_, rfl, rfl⟩
    | cons value values => exact .inr (.inl ⟨value, values, rfl⟩)
  | array element => exact .inr (.inr ⟨element, rfl⟩)
  | any => exact .inl ⟨_, rfl, rfl⟩
  | label name => exact .inl ⟨_, rfl, (ofWord_of_isTypeName (names name (.head _))).symm⟩
  | opaqueObject => exact .inl ⟨_, rfl, rfl⟩
  | named name => exact .inl ⟨_, rfl, (ofWord_of_isTypeName (names name (.head _))).symm⟩

theorem head_unionTokens (value : String) (values : List String) :
    ∃ more, unionTokens (value :: values) = literalToken value :: more := by
  cases values <;> exact ⟨_, rfl⟩

/-- Only a list is written with brackets. -/
theorem FieldType.exists_array_of_tokens {type element : FieldType}
    (same : type.tokens = (array element).tokens) : ∃ inner, type = array inner := by
  have bracket : .mark ']' ∈ type.tokens := by simp [same, tokens]
  rcases mark_mem_tokens bracket with bar | ⟨_, inner⟩
  · cases bar
  · exact inner

theorem FieldType.merged_eq_of_plain {first second : FieldType}
    (namesFirst : ∀ name ∈ first.names, isTypeName name)
    (namesSecond : ∀ name ∈ second.names, isTypeName name)
    (plain : ∀ element, first ≠ array element) (same : first.tokens = second.tokens) :
    first.merged = second.merged := by
  rcases first.tokens_cases namesFirst with ⟨word, ht, hm⟩ | ⟨value, values, rfl⟩ | ⟨_, isArray⟩
  · rcases second.tokens_cases namesSecond with ⟨word', ht', hm'⟩ | ⟨value, values, rfl⟩ | ⟨_, rfl⟩
    · rw [ht, ht', List.singleton_inj, Token.word.injEq] at same
      rw [hm, hm', same]
    · obtain ⟨more, hu⟩ := head_unionTokens value values
      rw [ht, tokens, hu] at same
      cases same
    · exact absurd (exists_array_of_tokens same) (by simpa using plain)
  · rcases second.tokens_cases namesSecond with ⟨word', ht', _⟩ | ⟨value', values', rfl⟩ | ⟨_, rfl⟩
    · obtain ⟨more, hu⟩ := head_unionTokens value values
      rw [ht', tokens, hu] at same
      cases same
    · rw [unionTokens_injective same]
    · exact absurd (exists_array_of_tokens same) (by simp)
  · exact absurd isArray (plain _)

/-- Types are told apart by their tokens. -/
theorem FieldType.merged_eq_of_tokens {first second : FieldType}
    (namesFirst : ∀ name ∈ first.names, isTypeName name)
    (namesSecond : ∀ name ∈ second.names, isTypeName name)
    (same : first.tokens = second.tokens) : first.merged = second.merged := by
  induction first generalizing second with
  | array element ih =>
    obtain ⟨inner, rfl⟩ := exists_array_of_tokens same.symm
    have elements : element.tokens = inner.tokens := List.append_cancel_right same
    have namesInner : ∀ name ∈ inner.names, isTypeName name := namesSecond
    rw [merged, merged, ih namesFirst namesInner elements]
  | primitive kind => exact merged_eq_of_plain namesFirst namesSecond (by simp) same
  | union values => exact merged_eq_of_plain namesFirst namesSecond (by simp) same
  | any => exact merged_eq_of_plain namesFirst namesSecond (by simp) same
  | label name => exact merged_eq_of_plain namesFirst namesSecond (by simp) same
  | opaqueObject => exact merged_eq_of_plain namesFirst namesSecond (by simp) same
  | named name => exact merged_eq_of_plain namesFirst namesSecond (by simp) same

/-! ### Fields, interfaces and statements -/

/-- Lists are told apart in front of an item that is in neither. -/
theorem eq_of_append_cons {α : Type} {first second rest rest' : List α} {a : α}
    (free : a ∉ first) (free' : a ∉ second) (same : first ++ a :: rest = second ++ a :: rest') :
    first = second ∧ rest = rest' := by
  induction first generalizing second with
  | nil =>
    cases second with
    | nil => exact ⟨rfl, (List.cons.inj same).2⟩
    | cons b second => exact absurd ((List.cons.inj same).1 ▸ List.mem_cons_self) free'
  | cons b first ih =>
    cases second with
    | nil => exact absurd ((List.cons.inj same).1 ▸ List.mem_cons_self) free
    | cons b' second =>
      obtain ⟨head, same⟩ := List.cons.inj same
      obtain ⟨tail, rests⟩ := ih (fun member => free (.tail _ member))
        (fun member => free' (.tail _ member)) same
      exact ⟨by rw [head, tail], rests⟩

theorem Field.uniquelyRead :
    UniquelyRead Field.tokens Field.bare fun item => ∀ name ∈ item.type.names, isTypeName name := by
  intro first second namesFirst namesSecond rest rest' same
  have free (item : Field) : Token.mark ';' ∉ item.type.tokens := by
    intro member
    rcases FieldType.mark_mem_tokens member with bar | ⟨bracket | bracket, _⟩
    · cases bar
    · cases bracket
    · cases bracket
  simp only [Field.tokens, List.cons_append, List.append_assoc, List.nil_append,
    List.cons.injEq, true_and] at same
  obtain ⟨key, same⟩ := same
  obtain ⟨types, rests⟩ := eq_of_append_cons (free first) (free second) same
  rw [Field.bare, Field.bare, keyToken_injective key,
    FieldType.merged_eq_of_tokens namesFirst namesSecond types]
  exact ⟨rfl, rests⟩

/-- No field begins with a closing brace. -/
theorem Field.head?_tokens_ne (item : Field) (rest : List Token) :
    ¬ (item.tokens ++ rest).head? = some (.mark '\x7d') := by
  intro same
  have key : keyToken item.name = .mark '\x7d' := Option.some.inj same
  unfold keyToken at key
  split at key <;> cases key

theorem Interface.bare_eq_of_tokens {first second : Interface}
    (namesFirst : ∀ name ∈ first.fields.flatMap (·.type.names), isTypeName name)
    (namesSecond : ∀ name ∈ second.fields.flatMap (·.type.names), isTypeName name)
    {rest rest' : List Token} (same : first.tokens ++ rest = second.tokens ++ rest') :
    (Statement.interface first).bare = (Statement.interface second).bare ∧ rest = rest' := by
  simp only [tokens, List.cons_append, List.append_assoc, List.nil_append, List.cons.injEq,
    Token.word.injEq, true_and] at same
  obtain ⟨name, same⟩ := same
  obtain ⟨fields, rests⟩ := Field.uniquelyRead.flatMap (·.head? = some (.mark '\x7d'))
    Field.head?_tokens_ne
    (fun item member name inside => namesFirst name (List.mem_flatMap.mpr ⟨item, member, inside⟩))
    (fun item member name inside => namesSecond name (List.mem_flatMap.mpr ⟨item, member, inside⟩))
    rfl rfl same
  rw [Statement.bare, Statement.bare, String.toList_injective name, fields]
  exact ⟨rfl, (List.cons.inj rests).2⟩

/-- The tokens of an interface are not those of a field: its keyword is followed by a word. -/
theorem interface_tokens_ne_field (exported : Bool) (declared : Interface) (item : Field)
    (rest rest' : List Token) :
    (Statement.interface declared).tokens exported ++ rest ≠ item.tokens ++ rest' := by
  have words : ∃ keyword name more, (Statement.interface declared).tokens exported =
      .word keyword :: .word name :: more := by
    cases exported <;> exact ⟨_, _, _, rfl⟩
  obtain ⟨keyword, name, more, words⟩ := words
  intro same
  rw [words] at same
  have colon : Token.word name = .mark ':' := (List.cons.inj (List.cons.inj same).2).1
  cases colon

theorem Statement.uniquelyRead (exported : Bool) :
    UniquelyRead (Statement.tokens exported) Statement.bare fun statement =>
      ∀ name ∈ statement.typeNames, isTypeName name := by
  intro first second namesFirst namesSecond rest rest' same
  cases first with
  | interface declared =>
    cases second with
    | interface declared' =>
      cases exported with
      | false => exact Interface.bare_eq_of_tokens namesFirst namesSecond same
      | true => exact Interface.bare_eq_of_tokens namesFirst namesSecond (List.cons.inj same).2
    | field item => exact absurd same (interface_tokens_ne_field _ _ _ _ _)
  | field item =>
    cases second with
    | interface declared => exact absurd same.symm (interface_tokens_ne_field _ _ _ _ _)
    | field item' =>
      obtain ⟨items, rests⟩ := Field.uniquelyRead _ _ namesFirst namesSecond _ _ same
      exact ⟨by rw [bare, bare, items], rests⟩

theorem Statement.tokens_append_ne_nil (exported : Bool) (statement : Statement)
    (rest : List Token) : ¬ statement.tokens exported ++ rest = [] := by
  cases statement with
  | interface declared => cases exported <;> simp [tokens, Interface.tokens]
  | field item => simp [tokens, Field.tokens]

/-! ### The text -/

theorem Statement.isWellNamed_iff (statement : Statement) :
    statement.isWellNamed = true ↔
      (∀ name ∈ statement.declaredName?, isIdentifier name.toList) ∧
      ∀ name ∈ statement.typeNames, isTypeName name := by
  rw [isWellNamed, Bool.and_eq_true, List.all_eq_true]
  cases statement <;> simp [declaredName?]

theorem isWord_of_isTypeName {name : String} (h : isTypeName name = true) : IsWord name := by
  rw [isTypeName, Bool.and_eq_true] at h
  exact isWord_of_isIdentifier h.1

theorem tokens_text_of_isWellNamed {layout : Layout} (docs : layout.docs = false)
    {statements : List Statement}
    (named : ∀ statement ∈ statements, statement.isWellNamed) :
    tokens (layout.text statements).toList =
      statements.flatMap (Statement.tokens layout.exported) := by
  apply Layout.tokens_text (Layout.silentDocs_of_docs_eq_false docs)
  · intro statement member name declared
    have names := ((Statement.isWellNamed_iff statement).mp (named statement member)).1
    exact isWord_of_isIdentifier (names name declared)
  · intro statement member name inside
    have names := ((Statement.isWellNamed_iff statement).mp (named statement member)).2
    exact isWord_of_isTypeName (names name inside)

/-- Printing without comments loses nothing but the descriptions and whether a name in a type is
that of an interface. -/
theorem text_injective (layout : Layout) (docs : layout.docs = false)
    (first second : List Statement) (namedFirst : ∀ statement ∈ first, statement.isWellNamed)
    (namedSecond : ∀ statement ∈ second, statement.isWellNamed)
    (same : layout.text first = layout.text second) :
    first.map Statement.bare = second.map Statement.bare := by
  have codes : first.flatMap (Statement.tokens layout.exported) ++ [] =
      second.flatMap (Statement.tokens layout.exported) ++ [] := by
    rw [← tokens_text_of_isWellNamed docs namedFirst,
      ← tokens_text_of_isWellNamed docs namedSecond, same]
  have unique := (Statement.uniquelyRead layout.exported).flatMap (· = [])
    (Statement.tokens_append_ne_nil _)
    (fun statement member =>
      ((Statement.isWellNamed_iff statement).mp (namedFirst statement member)).2)
    (fun statement member =>
      ((Statement.isWellNamed_iff statement).mp (namedSecond statement member)).2) rfl rfl codes
  exact unique.1

/-- Statements in which names and literals look like the code around them. -/
def disguisedStatements (refer : String → FieldType) (description : Option String) :
    List Statement := [
  .interface ⟨"A", description, [
    ⟨"interface", refer "B", description⟩,
    ⟨"x: string;\n\x7d\n", .array (.union ["a\" | \"b", "\x7d"]), none⟩]⟩,
  .field ⟨"export", .union [], description⟩,
  .field ⟨"interface", .array (refer "A"), none⟩]

theorem text_injective_disguised :
    (⟨0, false, false⟩ : Layout).text (disguisedStatements .label (some "interface A \x7b")) =
        (⟨0, false, false⟩ : Layout).text (disguisedStatements .named none) ∧
      (disguisedStatements .label (some "interface A \x7b")).map Statement.bare =
        (disguisedStatements .named none).map Statement.bare := by
  have same : (⟨0, false, false⟩ : Layout).text
      (disguisedStatements .label (some "interface A \x7b")) =
      (⟨0, false, false⟩ : Layout).text (disguisedStatements .named none) := rfl
  exact ⟨same, text_injective _ rfl _ _ (by decide) (by decide) same⟩

end SchemaInterfaces
