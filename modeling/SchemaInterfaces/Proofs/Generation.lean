import SchemaInterfaces.Generation

/-!
# The result of a generation

One equation for `Generation.result?`: it succeeds on the entries that are selected when these
define the root entry, and then reports the text and the counts of their statements.
-/
namespace SchemaInterfaces.Generation

theorem result?_eq_some_iff (generation : Generation) (document : Document)
    (generated : Generated) :
    generation.result? document = some generated ↔
      ∃ entries, generation.entries? document = some entries ∧
        generation.definesRoot entries = true ∧
        generated.code =
          generation.bannerText ++ generation.layout.text (Hoisted.statements entries) ∧
        generated.interfaceCount = (Hoisted.statements entries).countP (·.isInterface) ∧
        generated.fieldCount = (Hoisted.statements entries).countP (!·.isInterface) := by
  obtain ⟨code, interfaceCount, fieldCount⟩ := generated
  unfold result?
  cases he : generation.entries? document with
  | none => simp
  | some entries =>
    cases hr : generation.definesRoot entries with
    | false => simp [hr]
    | true =>
      simp only [hr, if_true, Option.some.injEq, Generated.mk.injEq, exists_eq_left', true_and]
      constructor
      · rintro ⟨rfl, rfl, rfl⟩
        exact ⟨rfl, rfl, rfl⟩
      · rintro ⟨rfl, rfl, rfl⟩
        exact ⟨rfl, rfl, rfl⟩

end SchemaInterfaces.Generation
