import SchemaInterfaces.Proofs.Interface.Token

/-!
# The tokens of printed statements

Which tokens a statement amounts to is said without its text (`Statement.tokens`), and the text is
then shown to have just these, whatever stands in the literals (`Layout.tokens_text`). All that a
layout can add is blank characters and comments, provided that the comments are such.
-/
namespace SchemaInterfaces

/-- The token of a field name. -/
def keyToken (name : String) : Token :=
  if isIdentifier name.toList then .word name.toList else literalToken name

/-- String literals with bars between them. -/
def unionTokens : List String → List Token
  | [] => [.word "never".toList]
  | [value] => [literalToken value]
  | value :: rest => literalToken value :: .mark '|' :: unionTokens rest

def FieldType.tokens : FieldType → List Token
  | primitive .text => [.word "string".toList]
  | primitive .number => [.word "number".toList]
  | union values => unionTokens values
  | array element => element.tokens ++ [.mark '[', .mark ']']
  | any => [.word "any".toList]
  | label name => [.word name.toList]
  | opaqueObject => [.word "object".toList]
  | named name => [.word name.toList]

def Field.tokens (field : Field) : List Token :=
  keyToken field.name :: .mark ':' :: (field.type.tokens ++ [.mark ';'])

def Interface.tokens (declared : Interface) : List Token :=
  .word "interface".toList :: .word declared.name.toList :: .mark '\x7b' ::
    (declared.fields.flatMap Field.tokens ++ [.mark '\x7d'])

/-- The tokens of a statement. Exporting puts one word in front of an interface. -/
def Statement.tokens (exported : Bool) : Statement → List Token
  | interface declared =>
    if exported then .word "export".toList :: declared.tokens else declared.tokens
  | field item => item.tokens

/-- The names that stand in a type as they are, those of interfaces and other ones. -/
def FieldType.names : FieldType → List String
  | named name | label name => [name]
  | array element => element.names
  | primitive _ | union _ | any | opaqueObject => []

/-- The names that stand in the types of a statement. -/
def Statement.typeNames : Statement → List String
  | interface declared => declared.fields.flatMap (·.type.names)
  | field item => item.type.names

/-- The name that a statement declares, where it declares one. -/
def Statement.declaredName? : Statement → Option String
  | interface declared => some declared.name
  | field _ => none

/-! ### Reading a type, a field and an interface -/

theorem tokens_keyText (name : String) {rest : List Char} (ends : EndsWord rest) :
    tokens ((keyText name).toList ++ rest) = keyToken name :: tokens rest := by
  unfold keyText keyToken
  split
  next h => exact tokens_word (isWord_of_isIdentifier h) ends
  next => exact tokens_quoted name rest

theorem tokens_unionText (values : List String) {rest : List Char} (ends : EndsWord rest) :
    tokens ((unionText values).toList ++ rest) = unionTokens values ++ tokens rest := by
  fun_induction unionText values with
  | case1 => exact tokens_word (isWord_of_isIdentifier (by decide)) ends
  | case2 value => exact tokens_quoted value rest
  | case3 value values ne ih =>
    have bars : " | ".toList = [' ', '|', ' '] := rfl
    rw [String.toList_append, String.toList_append, List.append_assoc, List.append_assoc,
      tokens_quoted, bars, unionTokens]
    · simp only [List.cons_append, List.nil_append]
      rw [tokens_blank rfl, tokens_mark rfl, tokens_blank rfl, ih]
    · exact ne

theorem tokens_typeText (type : FieldType) (words : ∀ name ∈ type.names, IsWord name)
    {rest : List Char} (ends : EndsWord rest) :
    tokens (type.text.toList ++ rest) = type.tokens ++ tokens rest := by
  induction type generalizing rest with
  | primitive kind =>
    cases kind with
    | text => exact tokens_word (isWord_of_isIdentifier (by decide)) ends
    | number => exact tokens_word (isWord_of_isIdentifier (by decide)) ends
  | union values => exact tokens_unionText values ends
  | array element ih =>
    have brackets : "[]".toList = ['[', ']'] := rfl
    rw [FieldType.text, String.toList_append, List.append_assoc, brackets, List.cons_append,
      List.cons_append, List.nil_append, ih words ((endsWord_cons _ _).mpr rfl),
      tokens_mark rfl, tokens_mark rfl, FieldType.tokens, List.append_assoc]
    rfl
  | any => exact tokens_word (isWord_of_isIdentifier (by decide)) ends
  | label name => exact tokens_word (words name (.head _)) ends
  | opaqueObject => exact tokens_word (isWord_of_isIdentifier (by decide)) ends
  | named name => exact tokens_word (words name (.head _)) ends

/-- A text without tokens, which also leaves the text behind it alone. -/
def Silent (text : String) : Prop :=
  ∀ rest : List Char, tokens (text.toList ++ rest) = tokens rest

theorem silent_empty : Silent "" := fun _ => rfl

theorem tokens_spaces {text : List Char} (spaces : ∀ c ∈ text, c = ' ') (rest : List Char) :
    tokens (text ++ rest) = tokens rest := by
  induction text with
  | nil => rfl
  | cons c text ih =>
    rw [spaces c (.head _), List.cons_append, tokens_blank rfl]
    exact ih fun d member => spaces d (.tail _ member)

theorem Layout.fieldIndent_spaces (layout : Layout) :
    ∀ c ∈ layout.fieldIndent.toList, c = ' ' := by
  intro c member
  rw [fieldIndent, String.toList_ofList] at member
  exact List.eq_of_mem_replicate member

theorem silent_fieldIndent (layout : Layout) : Silent layout.fieldIndent :=
  tokens_spaces layout.fieldIndent_spaces

namespace Layout

/-- A layout whose comments have no tokens. -/
def SilentDocs (layout : Layout) : Prop :=
  ∀ indent ∈ ["", layout.fieldIndent], ∀ description, Silent (layout.doc indent description)

theorem silentDocs_of_docs_eq_false {layout : Layout} (h : layout.docs = false) :
    layout.SilentDocs := by
  intro indent _ description
  cases description <;> simp [doc, h, silent_empty]

variable {layout : Layout} (docs : layout.SilentDocs)

include docs

theorem tokens_field {indent : String} (known : indent ∈ ["", layout.fieldIndent]) (item : Field)
    (words : ∀ name ∈ item.type.names, IsWord name) (rest : List Char) :
    tokens ((layout.field indent item).toList ++ rest) = item.tokens ++ tokens rest := by
  have blank : Silent indent := by
    simp only [List.mem_cons, List.not_mem_nil, or_false] at known
    rcases known with rfl | rfl
    · exact silent_empty
    · exact silent_fieldIndent layout
  have colon : ": ".toList = [':', ' '] := rfl
  have lineEnd : ";\n".toList = [';', '\n'] := rfl
  simp only [Layout.field, String.toList_append, List.append_assoc, colon, lineEnd,
    List.cons_append, List.nil_append]
  rw [docs indent known, blank, tokens_keyText _ ((endsWord_cons _ _).mpr rfl), tokens_mark rfl,
    tokens_blank rfl, tokens_typeText _ words ((endsWord_cons _ _).mpr rfl), tokens_mark rfl,
    tokens_blank rfl, Field.tokens]
  simp

theorem tokens_fields (fields : List Field)
    (words : ∀ name ∈ fields.flatMap (·.type.names), IsWord name) (rest : List Char) :
    tokens ((String.join (fields.map (layout.field layout.fieldIndent))).toList ++ rest) =
      fields.flatMap Field.tokens ++ tokens rest := by
  induction fields with
  | nil => simp
  | cons item fields ih =>
    rw [List.map_cons, String.join_cons, String.toList_append, List.append_assoc,
      tokens_field docs (by simp) item (fun name member => words name (by simp [member])), ih,
      List.flatMap_cons, List.append_assoc]
    intro name member
    rw [List.flatMap_cons] at words
    exact words name (List.mem_append_right _ member)

/-- An interface from its keyword on. -/
theorem tokens_declaration (declared : Interface) (name : IsWord declared.name)
    (words : ∀ name ∈ declared.fields.flatMap (·.type.names), IsWord name) (rest : List Char) :
    tokens ("interface ".toList ++ (declared.name.toList ++ (" \x7b\n".toList ++
      ((String.join (declared.fields.map (layout.field layout.fieldIndent))).toList ++
        ("\x7d\n".toList ++ rest))))) = declared.tokens ++ tokens rest := by
  have keyword : "interface ".toList = "interface".toList ++ [' '] := rfl
  have opening : " \x7b\n".toList = [' ', '\x7b', '\n'] := rfl
  have closing : "\x7d\n".toList = ['\x7d', '\n'] := rfl
  simp only [keyword, opening, closing, List.append_assoc, List.cons_append, List.nil_append]
  rw [tokens_word_cons (isWord_of_isIdentifier (by decide)) rfl, tokens_blank rfl,
    tokens_word_cons name rfl, tokens_blank rfl, tokens_mark rfl, tokens_blank rfl,
    tokens_fields docs _ words, tokens_mark rfl, tokens_blank rfl, Interface.tokens]
  simp

theorem tokens_interface (declared : Interface) (name : IsWord declared.name)
    (words : ∀ name ∈ declared.fields.flatMap (·.type.names), IsWord name) (rest : List Char) :
    tokens ((layout.interface declared).toList ++ rest) =
      (Statement.interface declared).tokens layout.exported ++ tokens rest := by
  have keyword : "export ".toList = "export".toList ++ [' '] := rfl
  have body := tokens_declaration docs declared name words rest
  simp only [Layout.interface, String.toList_append, List.append_assoc]
  rw [docs "" (by simp), Statement.tokens]
  split
  next =>
    rw [keyword, List.append_assoc, List.cons_append, List.nil_append,
      tokens_word_cons (isWord_of_isIdentifier (by decide)) rfl, tokens_blank rfl, body,
      List.cons_append]
  next => exact body

/-- Printed statements have the tokens that they should have and no others. -/
theorem tokens_text (statements : List Statement)
    (names : ∀ statement ∈ statements, ∀ name ∈ statement.declaredName?, IsWord name)
    (words : ∀ statement ∈ statements, ∀ name ∈ statement.typeNames, IsWord name) :
    tokens (layout.text statements).toList =
      statements.flatMap (Statement.tokens layout.exported) := by
  induction statements with
  | nil => rfl
  | cons statement statements ih =>
    have rest := ih (fun s member => names s (.tail _ member))
      (fun s member => words s (.tail _ member))
    have name := names statement (.head _)
    have words := words statement (.head _)
    rw [Layout.text, List.map_cons, String.join_cons, String.toList_append, List.flatMap_cons,
      ← rest]
    cases statement with
    | interface declared => exact tokens_interface docs declared (name _ rfl) words _
    | field item => exact tokens_field docs (by simp) item words _

end Layout

end SchemaInterfaces
