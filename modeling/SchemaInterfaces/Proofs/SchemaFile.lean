import SchemaInterfaces.Proofs.Interface.NormalForm
import SchemaInterfaces.Proofs.Interface.Provenance
import SchemaInterfaces.Proofs.Json.Reading
import SchemaInterfaces.SchemaFile

/-!
# Generating from JSON text

A document and its compact JSON text generate the same, whatever the options are
(`read_json_write`). The keys are read in their order, and the generated fields keep it: entries
that stand alone stand in the order of the entries, and the fields of an interface in the order of
the properties (`InSourceOrder`).
-/
namespace SchemaInterfaces

/-! ### Parts of a document -/

theorem hasDistinctKeys_of_enter? {document inner : Document} {token : List Char}
    (distinct : document.hasDistinctKeys = true)
    (entered : Pointer.enter? document token = some inner) : inner.hasDistinctKeys = true := by
  cases document with
  | mapping entries => exact DistinctKeys.of_lookup distinct entered
  | sequence items =>
    obtain ⟨index, _, found⟩ := Option.bind_eq_some_iff.mp entered
    exact (Document.itemsDistinct_iff items).mp distinct inner (List.mem_of_getElem? found)
  | null | boolean _ | number _ | text _ => cases entered

theorem hasDistinctKeys_of_follow? {document inner : Document} {tokens : List (List Char)}
    (distinct : document.hasDistinctKeys = true)
    (followed : Pointer.follow? document tokens = some inner) : inner.hasDistinctKeys = true := by
  induction tokens generalizing document with
  | nil =>
    cases followed
    exact distinct
  | cons token rest ih =>
    obtain ⟨next, entered, followed⟩ := Option.bind_eq_some_iff.mp followed
    exact ih (hasDistinctKeys_of_enter? distinct entered) followed

/-- The entries that are generated have each key once if the document has. -/
theorem distinctKeys_of_entries? {generation : Generation} {document : Document}
    {entries : List (String × Document)} (distinct : document.hasDistinctKeys = true)
    (selected : generation.entries? document = some entries) : DistinctKeys entries := by
  obtain ⟨inner, found, isMapping⟩ := Option.bind_eq_some_iff.mp selected
  have inside : inner.hasDistinctKeys = true := by
    cases pointer : generation.pointer with
    | none =>
      rw [pointer] at found
      cases found
      exact distinct
    | some pointer =>
      simp only [pointer] at found
      obtain ⟨tokens, _, followed⟩ := Option.bind_eq_some_iff.mp found
      exact hasDistinctKeys_of_follow? distinct followed
  cases inner with
  | mapping held =>
    cases isMapping
    exact inside
  | null | boolean _ | number _ | text _ | sequence _ => cases isMapping

/-! ### The order of fields -/

/-- The field that a statement is, unless it is an interface. -/
def Statement.field? : Statement → Option Field
  | interface _ => none
  | field item => some item

/-- The generated fields stand in the order of their keys: those that stand alone in the order of
the entries, those of an interface in the order of the properties it stands for. -/
structure InSourceOrder (entries : List (String × Document)) : Prop where
  standAlone : ((Hoisted.statements entries).filterMap Statement.field?).map (·.name) =
    (entries.filter fun entry => !entry.2.isExpanding).map Prod.fst
  inInterface : ∀ declared, .interface declared ∈ Hoisted.statements entries →
    ∃ path definition, definitionAt? entries path = some definition ∧
      declared.fields.map (·.name) = definition.properties.map Prod.fst

theorem fields_statementsOf (entry : String × Document) :
    (Hoisted.statementsOf entry.1 (.ofDocument entry.2)).filterMap Statement.field? =
      if entry.2.isExpanding then [] else [Hoisted.fieldOf [] entry] := by
  rw [statementsOf_eq]
  cases entry.2.isExpanding with
  | false => rfl
  | true => simp [statementsAt, Statement.field?]

theorem inSourceOrder {entries : List (String × Document)} (distinct : DistinctKeys entries) :
    InSourceOrder entries where
  standAlone := by
    clear distinct
    induction entries with
    | nil => rfl
    | cons entry rest ih =>
      rw [Hoisted.statements, List.flatMap_cons, List.filterMap_append, fields_statementsOf,
        List.map_append]
      rw [Hoisted.statements] at ih
      rw [ih]
      cases h : entry.2.isExpanding with
      | false => simp [h, Hoisted.fieldOf]
      | true => simp [h]
  inInterface declared member := by
    have covered : some (.interface declared) ∈ (Hoisted.statements entries).map some :=
      List.mem_map_of_mem member
    rw [statements_eq_map_originPaths distinct] at covered
    obtain ⟨path, _, stands⟩ := List.mem_map.mp covered
    rw [statementAt?] at stands
    cases found : definitionAt? entries path with
    | none => simp [found] at stands
    | some definition =>
      refine ⟨path, definition, found, ?_⟩
      cases h : definition.isExpanding with
      | true =>
        simp only [found, h, if_true, Option.some.injEq, Statement.interface.injEq] at stands
        rw [← stands, Hoisted.interfaceOf, List.map_map]
        rfl
      | false =>
        simp only [found, h, Bool.false_eq_true, if_false] at stands
        split at stands <;> cases stands

/-! ### From text to code -/

/-- A document is read from its compact JSON text as it is, so the text generates what the document
generates, with the fields in the order of the source. -/
theorem read_json_write (document : Document) (shallow : document.depth ≤ 127)
    (distinct : document.hasDistinctKeys = true) (words : document.hasWords = true) :
    Format.read (Json.write document) .json = .ok document ∧
    ∀ generation : Generation,
      (Format.read (Json.write document) .json).map generation.result? =
        .ok (generation.result? document) ∧
      ∀ entries, generation.entries? document = some entries → InSourceOrder entries := by
  have back : Format.read (Json.write document) .json = .ok document := by
    rw [Format.read, Json.read_write shallow distinct words]
    rfl
  refine ⟨back, fun generation => ⟨by rw [back]; rfl, fun entries selected => ?_⟩⟩
  exact inSourceOrder (distinctKeys_of_entries? distinct selected)

/-- Entries with empty containers, a key and a text full of characters that need an escape, and the
least and the greatest integers of 64 bits, in an order that sorting would change. -/
def hostileEntries : List (String × Document) := [
  ("list", .sequence []),
  ("\x00\"\\\n",
    .sequence [.mapping [], .null, .boolean true, .text "\x00\"\\\n\r\x1fé\u2028"]),
  ("context", .mapping [("type", .text "object"),
    ("properties", .mapping [("b", .mapping [("type", .text "string")]), ("a", .mapping [])])]),
  ("bounds", .sequence [.number (.integer (-9223372036854775808)),
    .number (.integer 18446744073709551615)])]

theorem read_json_write_hostile :
    (Document.mapping hostileEntries).depth ≤ 127 ∧
    (Document.mapping hostileEntries).hasDistinctKeys = true ∧
    (Document.mapping hostileEntries).hasWords = true ∧
    Format.read (Json.write (.mapping hostileEntries)) .json = .ok (.mapping hostileEntries) ∧
    (Format.read (Json.write (.mapping hostileEntries)) .json).map ({} : Generation).result? =
      .ok (({} : Generation).result? (.mapping hostileEntries)) ∧
    InSourceOrder hostileEntries := by
  have shallow : (Document.mapping hostileEntries).depth ≤ 127 := by decide
  have distinct : (Document.mapping hostileEntries).hasDistinctKeys = true := by decide
  have words : (Document.mapping hostileEntries).hasWords = true := by decide
  obtain ⟨back, generates⟩ := read_json_write _ shallow distinct words
  obtain ⟨same, ordered⟩ := generates {}
  exact ⟨shallow, distinct, words, back, same, ordered _ rfl⟩

end SchemaInterfaces
