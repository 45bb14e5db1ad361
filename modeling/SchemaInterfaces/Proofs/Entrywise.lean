import Mathlib.Logic.Relation
import SchemaInterfaces.Proofs.Generation
import SchemaInterfaces.Proofs.Interface.Provenance

/-!
# Entry by entry

Nothing is carried from one root entry to the next. Each has a chunk of text with its own counts,
made from the entry and the layout alone, and without a banner the generated code is these chunks
one after the other, in the order of the entries. Whether code is generated at all depends on the
root entry only, so edits of the other entries never make a generation fail, however many there are,
and every entry that is left keeps its chunk (`result?_entrywise`).
-/
namespace SchemaInterfaces

/-- Texts put together with their counts. -/
def Generated.concat (chunks : List Generated) : Generated where
  code := String.join (chunks.map (·.code))
  interfaceCount := (chunks.map (·.interfaceCount)).sum
  fieldCount := (chunks.map (·.fieldCount)).sum

/-- What one root entry is generated to. -/
def Layout.chunk (layout : Layout) (entry : String × Document) : Generated where
  code := layout.text (Hoisted.statementsOf entry.1 (.ofDocument entry.2))
  interfaceCount := (Hoisted.statementsOf entry.1 (.ofDocument entry.2)).countP (·.isInterface)
  fieldCount := (Hoisted.statementsOf entry.1 (.ofDocument entry.2)).countP (!·.isInterface)

theorem Layout.text_flatMap {α : Type} (layout : Layout) (statements : α → List Statement)
    (items : List α) :
    layout.text (items.flatMap statements) =
      String.join (items.map fun item => layout.text (statements item)) := by
  induction items with
  | nil => rfl
  | cons item items ih =>
    rw [text] at ih
    rw [text, List.flatMap_cons, List.map_append, String.join_append, ih, List.map_cons,
      String.join_cons, text]

theorem Generated.concat_chunks (layout : Layout) (entries : List (String × Document)) :
    concat (entries.map layout.chunk) =
      ⟨layout.text (Hoisted.statements entries),
        (Hoisted.statements entries).countP (·.isInterface),
        (Hoisted.statements entries).countP (!·.isInterface)⟩ := by
  simp only [Hoisted.statements, Layout.text_flatMap, List.countP_flatMap]
  simp only [concat, Layout.chunk, List.map_map, Function.comp_def]

namespace Generation

/-- One edit of a mapping that leaves the root entry an object, if it was one. -/
inductive Edit (rootKey : String) : (before after : List (String × Document)) → Prop
  /-- An entry is put anywhere under a new key. -/
  | insert (front back : List (String × Document)) (key : String) (definition : Document)
      (new : key ∉ (front ++ back).map Prod.fst) :
      Edit rootKey (front ++ back) (front ++ (key, definition) :: back)
  /-- An entry other than the root entry is left out. -/
  | delete (front back : List (String × Document)) (key : String) (definition : Document)
      (other : key ≠ rootKey) :
      Edit rootKey (front ++ (key, definition) :: back) (front ++ back)
  /-- Another definition takes the place of one that is not that of the root entry. -/
  | change (front back : List (String × Document)) (key : String)
      (definition changed : Document) (other : key ≠ rootKey) :
      Edit rootKey (front ++ (key, definition) :: back) (front ++ (key, changed) :: back)
  /-- The entries of a mapping, each key once, are put in another order. -/
  | permute {entries permuted : List (String × Document)} (order : entries.Perm permuted)
      (distinct : (entries.map Prod.fst).Nodup) : Edit rootKey entries permuted
  /-- Another definition of an object takes the place of that of the root entry. -/
  | replaceRoot (front back : List (String × Document)) (definition replaced : Document)
      (isObject : Shape.label? replaced "type" = some "object") :
      Edit rootKey (front ++ (rootKey, definition) :: back)
        (front ++ (rootKey, replaced) :: back)

/-! ### The root entry under edits -/

theorem lookup_append_cons_of_ne {key other : String} (h : other ≠ key)
    (front back : List (String × Document)) (definition : Document) :
    (front ++ (key, definition) :: back).lookup other = (front ++ back).lookup other := by
  have differ : (other == key) = false := beq_eq_false_iff_ne.mpr h
  rw [List.lookup_append, List.lookup_append, List.lookup_cons, differ]

theorem lookup_eq_of_perm {entries permuted : List (String × Document)}
    (order : entries.Perm permuted) (distinct : (entries.map Prod.fst).Nodup) (key : String) :
    permuted.lookup key = entries.lookup key := by
  have distinct' := (order.map Prod.fst).nodup_iff.mp distinct
  apply Option.ext
  intro definition
  rw [Document.lookup_eq_some_iff_of_nodup distinct, Document.lookup_eq_some_iff_of_nodup distinct',
    order.mem_iff]

variable {generation : Generation} {entries edited : List (String × Document)}

theorem definesRoot_iff :
    generation.definesRoot entries = true ↔
      ∃ definition, entries.lookup generation.rootKey = some definition ∧
        Shape.label? definition "type" = some "object" := by
  rw [definesRoot, beq_iff_eq, Option.bind_eq_some_iff]

theorem definesRoot_congr
    (same : edited.lookup generation.rootKey = entries.lookup generation.rootKey) :
    generation.definesRoot edited = generation.definesRoot entries := by
  rw [definesRoot, definesRoot, same]

/-- An edit keeps the root entry an object. -/
theorem Edit.definesRoot (edit : Edit generation.rootKey entries edited)
    (root : generation.definesRoot entries = true) : generation.definesRoot edited = true := by
  cases edit with
  | insert front back key definition new =>
    obtain ⟨held, found, _⟩ := definesRoot_iff.mp root
    have differ : generation.rootKey ≠ key := by
      rintro rfl
      exact new (List.mem_map_of_mem (Document.mem_of_lookup_eq_some _ _ _ found))
    rw [definesRoot_congr (lookup_append_cons_of_ne differ front back definition)]
    exact root
  | delete front back key definition other =>
    rw [← definesRoot_congr (lookup_append_cons_of_ne other.symm front back definition)]
    exact root
  | change front back key definition changed other =>
    rw [definesRoot_congr (lookup_append_cons_of_ne other.symm front back changed),
      ← definesRoot_congr (lookup_append_cons_of_ne other.symm front back definition)]
    exact root
  | permute order distinct =>
    rw [definesRoot_congr (lookup_eq_of_perm order distinct _)]
    exact root
  | replaceRoot front back definition replaced isObject =>
    obtain ⟨held, found, holdsObject⟩ := definesRoot_iff.mp root
    apply definesRoot_iff.mpr
    rw [List.lookup_append] at found ⊢
    -- The first entry under the root key counts, which can only be the new one or one before it.
    cases inFront : front.lookup generation.rootKey with
    | none => exact ⟨replaced, by simp, isObject⟩
    | some first =>
      rw [inFront, Option.some_or, Option.some.injEq] at found
      subst found
      exact ⟨first, rfl, holdsObject⟩

/-- So do any number of edits. -/
theorem definesRoot_of_edits
    (edits : Relation.ReflTransGen (Edit generation.rootKey) entries edited)
    (root : generation.definesRoot entries = true) : generation.definesRoot edited = true := by
  induction edits with
  | refl => exact root
  | tail _ edit ih => exact edit.definesRoot ih

/-! ### The generated code -/

/-- Without a banner the chunks of the entries are all that is generated. -/
theorem result?_of_entries {document : Document} (plain : generation.banner = none)
    (selected : generation.entries? document = some entries) :
    generation.result? document =
      if generation.definesRoot entries then
        some (.concat (entries.map generation.layout.chunk))
      else none := by
  have front : generation.bannerText = "" := by rw [bannerText, plain]
  simp only [result?, selected, front, String.empty_append, Generated.concat_chunks]

theorem result?_eq_some_concat {document : Document} {generated : Generated}
    (plain : generation.banner = none) (selected : generation.entries? document = some entries)
    (success : generation.result? document = some generated) :
    generation.definesRoot entries = true ∧
      generated = .concat (entries.map generation.layout.chunk) := by
  rw [result?_of_entries plain selected] at success
  cases root : generation.definesRoot entries with
  | false => simp [root] at success
  | true =>
    rw [root, if_pos rfl, Option.some.injEq] at success
    exact ⟨rfl, success.symm⟩

/-- Without a banner the code is the chunks of the entries in their order, and the counts are the
sums of theirs. After any edits that keep the root entry an object code is generated again, from the
chunks of the entries that there are now. -/
theorem result?_entrywise (generation : Generation) (plain : generation.banner = none) :
    (∀ document generated, generation.result? document = some generated →
      ∃ entries, generation.entries? document = some entries ∧
        generated = .concat (entries.map generation.layout.chunk)) ∧
    ∀ document generated entries after edited,
      generation.result? document = some generated →
      generation.entries? document = some entries →
      Relation.ReflTransGen (Edit generation.rootKey) entries edited →
      generation.entries? after = some edited →
        generated = .concat (entries.map generation.layout.chunk) ∧
        generation.result? after = some (.concat (edited.map generation.layout.chunk)) := by
  constructor
  · intro document generated success
    obtain ⟨entries, selected, _⟩ := (generation.result?_eq_some_iff document generated).mp success
    exact ⟨entries, selected, (result?_eq_some_concat plain selected success).2⟩
  · intro document generated entries after edited success selected edits selected'
    obtain ⟨root, whole⟩ := result?_eq_some_concat plain selected success
    refine ⟨whole, ?_⟩
    rw [result?_of_entries plain selected', if_pos (definesRoot_of_edits edits root)]

/-- A schema with one entry less, a root entry without properties and the rest turned around. -/
def editedSchema : List (String × Document) := [
  ("context_", objectWith [("t", typed "integer")]),
  ("context", typed "object")]

theorem result?_entrywise_edited :
    ({} : Generation).banner = none ∧
      ({} : Generation).result? (.mapping editedSchema) =
        some (.concat (editedSchema.map ({} : Generation).layout.chunk)) := by
  have deleted : Edit "context" collidingSchema
      (collidingSchema.take 1 ++ collidingSchema.drop 2) :=
    .delete (collidingSchema.take 1) (collidingSchema.drop 2) "suffix" _ (by decide)
  have replaced : Edit "context" (collidingSchema.take 1 ++ collidingSchema.drop 2)
      editedSchema.reverse := .replaceRoot [] _ _ (typed "object") rfl
  have permuted : Edit "context" editedSchema.reverse editedSchema :=
    .permute (List.reverse_perm _) (by decide)
  have accepted : (({} : Generation).result? (.mapping collidingSchema)).isSome = true := by decide
  obtain ⟨generated, success⟩ := Option.isSome_iff_exists.mp accepted
  exact ⟨rfl, ((result?_entrywise {} rfl).2 _ generated _ _ editedSchema success rfl
    (.tail (.tail (.single deleted) replaced) permuted) rfl).2⟩

end Generation

end SchemaInterfaces
