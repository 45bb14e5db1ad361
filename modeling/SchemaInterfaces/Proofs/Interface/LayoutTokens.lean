import SchemaInterfaces.Proofs.Interface.DocComment

/-!
# Layout and tokens

A layout decides about blanks, comments and the word `export`, and about nothing else. Two layouts
that agree on exporting give one sequence of tokens. Where they do not, the sequences differ by that
word in front of every `interface` that opens a declaration; in a sequence of tokens that is one
with a name behind it, as a field called `interface` has a colon there and a type has another mark.
-/
namespace SchemaInterfaces

/-- Puts the word `export` in front of every `interface` that a name follows. -/
def exportOpenings : List Token → List Token
  | .word keyword :: .word name :: rest =>
    if keyword = "interface".toList then
      .word "export".toList :: .word keyword :: exportOpenings (.word name :: rest)
    else .word keyword :: exportOpenings (.word name :: rest)
  | token :: rest => token :: exportOpenings rest
  | [] => []

/-- The names that follow an `interface`. -/
def openedNames : List Token → List (List Char)
  | .word keyword :: .word name :: rest =>
    if keyword = "interface".toList then name :: openedNames (.word name :: rest)
    else openedNames (.word name :: rest)
  | _ :: rest => openedNames rest
  | [] => []

/-- Tokens in which nothing is opened, and which end where nothing can be opened across their
end. -/
def Closed (chunk : List Token) : Prop :=
  ∀ rest, exportOpenings (chunk ++ rest) = chunk ++ exportOpenings rest ∧
    openedNames (chunk ++ rest) = openedNames rest

namespace Closed

theorem nil : Closed [] := fun _ => ⟨rfl, rfl⟩

theorem append {front back : List Token} (first : Closed front) (second : Closed back) :
    Closed (front ++ back) := by
  intro rest
  obtain ⟨exported, names⟩ := first (back ++ rest)
  obtain ⟨exported', names'⟩ := second rest
  rw [List.append_assoc, exported, exported', names, names', List.append_assoc]
  exact ⟨rfl, rfl⟩

theorem flatMap {α : Type} {code : α → List Token} {items : List α}
    (closed : ∀ item ∈ items, Closed (code item)) : Closed (items.flatMap code) := by
  induction items with
  | nil => exact nil
  | cons item items ih =>
    rw [List.flatMap_cons]
    exact (closed item (.head _)).append (ih fun other member => closed other (.tail _ member))

theorem mark (c : Char) : Closed [.mark c] := fun _ => by
  simp [exportOpenings, openedNames]

theorem literal_mark (written : List Char) (c : Char) : Closed [.literal written, .mark c] :=
  fun _ => by simp [exportOpenings, openedNames]

theorem word_mark (word : List Char) (c : Char) : Closed [.word word, .mark c] := fun _ => by
  simp [exportOpenings, openedNames]

theorem keyToken_mark (name : String) (c : Char) : Closed [keyToken name, .mark c] := by
  unfold keyToken
  split
  · exact word_mark _ c
  · exact literal_mark _ c

theorem unionTokens_mark : (values : List String) → (c : Char) →
    Closed (unionTokens values ++ [.mark c])
  | [], c => word_mark _ c
  | [_], c => literal_mark _ c
  | _ :: next :: rest, c => (literal_mark _ '|').append (unionTokens_mark (next :: rest) c)

/-- A type ends in a word or a mark, so it takes the mark behind it to close it. -/
theorem type_mark (type : FieldType) (c : Char) : Closed (type.tokens ++ [.mark c]) := by
  induction type generalizing c with
  | primitive kind =>
    cases kind with
    | text => exact word_mark _ c
    | number => exact word_mark _ c
  | union values => exact unionTokens_mark values c
  | array element ih =>
    have brackets := ((ih '[').append (mark ']')).append (mark c)
    simpa [FieldType.tokens] using brackets
  | any => exact word_mark _ c
  | label name => exact word_mark _ c
  | opaqueObject => exact word_mark _ c
  | named name => exact word_mark _ c

theorem field (item : Field) : Closed item.tokens :=
  (keyToken_mark item.name ':').append (type_mark item.type ';')

/-- An `interface` in front of a name is exported, and behind it all goes on as before. -/
theorem opening {name : List Char} {more : List Token} (closed : Closed (.word name :: more))
    (rest : List Token) :
    exportOpenings (.word "interface".toList :: .word name :: (more ++ rest)) =
        .word "export".toList :: .word "interface".toList ::
          (.word name :: more ++ exportOpenings rest) ∧
      openedNames (.word "interface".toList :: .word name :: (more ++ rest)) =
        name :: openedNames rest := by
  obtain ⟨exported, names⟩ := closed rest
  rw [List.cons_append] at exported names
  simp [exportOpenings, openedNames, exported, names]

end Closed

theorem openings_interface (declared : Interface) (rest : List Token) :
    exportOpenings (declared.tokens ++ rest) =
        .word "export".toList :: (declared.tokens ++ exportOpenings rest) ∧
      openedNames (declared.tokens ++ rest) = declared.name.toList :: openedNames rest := by
  have fields : Closed (declared.fields.flatMap Field.tokens ++ [.mark '\x7d']) :=
    (Closed.flatMap fun item _ => .field item).append (.mark _)
  exact ((Closed.word_mark declared.name.toList '\x7b').append fields).opening rest

theorem openings_statement (statement : Statement) (rest : List Token) :
    exportOpenings (statement.tokens false ++ rest) =
        statement.tokens true ++ exportOpenings rest ∧
      openedNames (statement.tokens false ++ rest) =
        (statement.declaredName?.map String.toList).toList ++ openedNames rest := by
  cases statement with
  | interface declared => exact openings_interface declared rest
  | field item => exact Closed.field item rest

theorem openings_flatMap_tokens (statements : List Statement) :
    exportOpenings (statements.flatMap (Statement.tokens false)) =
        statements.flatMap (Statement.tokens true) ∧
      openedNames (statements.flatMap (Statement.tokens false)) =
        (statements.filterMap Statement.declaredName?).map String.toList := by
  induction statements with
  | nil => exact ⟨rfl, rfl⟩
  | cons statement statements ih =>
    obtain ⟨exported, names⟩ :=
      openings_statement statement (statements.flatMap (Statement.tokens false))
    rw [List.flatMap_cons, exported, names, ih.1, ih.2, List.flatMap_cons, List.filterMap_cons]
    cases statement.declaredName? <;> simp

/-- Layouts do not change what is declared. Indentation and comments have no tokens, whatever the
descriptions say; exporting adds one word in front of each `interface` that opens a declaration, and
those are the ones of the declared names. -/
theorem tokens_text_of_layouts (statements : List Statement)
    (names : ∀ statement ∈ statements, ∀ name ∈ statement.declaredName?, IsWord name)
    (words : ∀ statement ∈ statements, ∀ name ∈ statement.typeNames, IsWord name) :
    (∀ first second : Layout, first.exported = second.exported →
      tokens (first.text statements).toList = tokens (second.text statements).toList) ∧
    ∀ plain exporting : Layout, plain.exported = false → exporting.exported = true →
      tokens (exporting.text statements).toList =
        exportOpenings (tokens (plain.text statements).toList) ∧
      openedNames (tokens (plain.text statements).toList) =
        (statements.filterMap Statement.declaredName?).map String.toList := by
  have text (layout : Layout) : tokens (layout.text statements).toList =
      statements.flatMap (Statement.tokens layout.exported) :=
    Layout.tokens_text layout.silentDocs statements names words
  obtain ⟨exported, opened⟩ := openings_flatMap_tokens statements
  refine ⟨?_, ?_⟩
  · intro first second same
    rw [text, text, same]
  · intro plain exporting off on
    rw [text, text, off, on, exported, opened]
    exact ⟨rfl, rfl⟩

instance (name : String) : Decidable (IsWord name) :=
  decidable_of_iff (name.toList ≠ [] ∧ name.toList.all isIdentifierPart = true) (by simp [IsWord])

/-- Statements whose descriptions, keys and literals look like comments and code. -/
def hostileStatements : List Statement := [
  .interface ⟨"Outer", some "*/ interface Fake \x7b\n**/\n\n /* \"", [
    ⟨"interface", .array (.named "Outer"), some "*\r\n/ x: any; */"⟩,
    ⟨"/** */", .union ["/*", "*/ \"", "export interface"], none⟩]⟩,
  .field ⟨"export", .label "interface", some "\n*/*/ */"⟩]

theorem tokens_text_of_layouts_hostile :
    (∀ statement ∈ hostileStatements, ∀ name ∈ statement.declaredName?, IsWord name) ∧
    (∀ statement ∈ hostileStatements, ∀ name ∈ statement.typeNames, IsWord name) ∧
    tokens ((⟨3, false, true⟩ : Layout).text hostileStatements).toList =
      tokens ((⟨0, false, false⟩ : Layout).text hostileStatements).toList ∧
    tokens ((⟨1, true, true⟩ : Layout).text hostileStatements).toList =
      exportOpenings (tokens ((⟨0, false, false⟩ : Layout).text hostileStatements).toList) := by
  have names : ∀ statement ∈ hostileStatements, ∀ name ∈ statement.declaredName?, IsWord name := by
    decide
  have words : ∀ statement ∈ hostileStatements, ∀ name ∈ statement.typeNames, IsWord name := by
    decide
  obtain ⟨same, exported⟩ := tokens_text_of_layouts hostileStatements names words
  exact ⟨names, words, same _ _ rfl, (exported _ _ rfl rfl).1⟩

end SchemaInterfaces
