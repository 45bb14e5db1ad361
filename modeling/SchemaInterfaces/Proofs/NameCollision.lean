import SchemaInterfaces.Proofs.KeyPath

/-!
# Which paths share a name

The name of a path depends on the pieces between the underscores of its keys and on nothing else:
how the pieces are spread over keys does not matter, and neither do keys of underscores alone. Where
all pieces are plain fragments the name determines them, so two such paths share a name exactly when
they have the same pieces (`nameOf_collisions`).
-/
namespace SchemaInterfaces.KeyPath

/-- The pieces of the keys between underscores, those without characters left out. -/
def pieces (keys : List String) : List (List Char) :=
  keys.flatMap fun key => (key.toList.splitOn '_').filter (· ≠ [])

theorem splitUnderscore_eq_splitOn (key : List Char) : splitUnderscore key = key.splitOn '_' := by
  induction key with
  | nil => rfl
  | cons c rest ih =>
    rw [splitUnderscore, List.splitOn_cons_eq_if_modifyHead, ih]
    by_cases underscore : c = '_'
    · simp [underscore]
    · cases parts : rest.splitOn '_' with
      | nil => exact absurd parts (List.splitOn_ne_nil _ _)
      | cons part parts => simp [underscore]

/-- A piece has no other characters than its key, and no underscore. -/
theorem mem_of_mem_splitUnderscore {key piece : List Char}
    (member : piece ∈ splitUnderscore key) : ∀ c ∈ piece, c ∈ key ∧ c ≠ '_' := by
  fun_induction splitUnderscore key generalizing piece with
  | case1 =>
    rw [List.mem_singleton.mp member]
    intro c inside
    cases inside
  | case2 rest ih =>
    intro c inside
    rcases List.mem_cons.mp member with rfl | later
    · cases inside
    · exact (ih later c inside).imp (.tail _) id
  | case3 d rest other none =>
    rw [List.mem_singleton.mp member]
    intro c inside
    rw [List.mem_singleton.mp inside]
    exact ⟨.head _, other⟩
  | case4 d rest other first pieces split ih =>
    rw [split] at ih
    intro c inside
    rcases List.mem_cons.mp member with rfl | later
    · rcases List.mem_cons.mp inside with rfl | behind
      · exact ⟨.head _, other⟩
      · exact (ih (.head _) c behind).imp (.tail _) id
    · exact (ih (.tail _ later) c inside).imp (.tail _) id

theorem fragmentsOf_eq (key : List Char) : fragmentsOf key = (key.splitOn '_').filter (· ≠ []) := by
  rw [fragmentsOf, splitUnderscore_eq_splitOn]
  exact List.filter_congr fun piece _ => by cases piece <;> rfl

/-- The name of a path is put together from its pieces. -/
theorem fragments_eq_pieces (keys : List String) : fragments keys = pieces keys := by
  simp only [fragments, pieces, fragmentsOf_eq]

/-! ### How pieces are spread over keys -/

theorem fragments_cons (key : String) (keys : List String) :
    fragments (key :: keys) = fragmentsOf key.toList ++ fragments keys := List.flatMap_cons

theorem fragmentsOf_append_underscore (front back : List Char) :
    fragmentsOf (front ++ '_' :: back) = fragmentsOf front ++ fragmentsOf back := by
  simp only [fragmentsOf_eq, List.splitOn_append_cons_self, List.filter_append]

/-- Keys may be joined by underscores to a single one. -/
theorem fragments_intercalate (keys : List String) :
    fragments ["_".intercalate keys] = fragments keys := by
  have single (key : String) : fragments [key] = fragmentsOf key.toList := by
    rw [fragments, List.flatMap_singleton]
  induction keys with
  | nil => rfl
  | cons key keys ih =>
    rw [single] at ih ⊢
    rw [String.toList_intercalate] at ih ⊢
    cases keys with
    | nil => simp [fragments]
    | cons next keys =>
      have underscore : "_".toList = ['_'] := rfl
      rw [List.map_cons] at ih ⊢
      rw [List.map_cons, List.intercalate_cons_cons, underscore, List.append_assoc,
        List.singleton_append, fragmentsOf_append_underscore, ← underscore, ih, fragments_cons key]

theorem fragmentsOf_of_underscores {key : List Char} (only : ∀ c ∈ key, c = '_') :
    fragmentsOf key = [] := by
  induction key with
  | nil => rfl
  | cons c rest ih =>
    rw [only c (.head _), ← List.nil_append ('_' :: rest), fragmentsOf_append_underscore,
      ih fun d member => only d (.tail _ member)]
    rfl

/-- Two paths with the same pieces share a name: pieces may be regrouped and keys of underscores
left out, and names of parts are put together. Of paths with plain pieces only, no others do. -/
theorem nameOf_collisions :
    (∀ first second : List String, pieces first = pieces second → nameOf first = nameOf second) ∧
    (∀ keys : List String, nameOf ["_".intercalate keys] = nameOf keys) ∧
    (∀ (front back : List String) (key : String), (∀ c ∈ key.toList, c = '_') →
      nameOf (front ++ key :: back) = nameOf (front ++ back)) ∧
    (∀ front back : List String, nameOf (front ++ back) = nameOf front ++ nameOf back) ∧
    (∀ first second : List String, (∀ piece ∈ pieces first, isPlainFragment piece = true) →
      (∀ piece ∈ pieces second, isPlainFragment piece = true) →
        (nameOf first = nameOf second ↔ pieces first = pieces second)) := by
  have named (first second : List String) (same : pieces first = pieces second) :
      nameOf first = nameOf second := by
    rw [nameOf, nameOf, fragments_eq_pieces, fragments_eq_pieces, same]
  refine ⟨named, fun keys => ?_, fun front back key only => ?_, nameOf_append,
    fun first second plain plain' => ⟨fun same => ?_, named first second⟩⟩
  · rw [nameOf, fragments_intercalate, nameOf]
  · apply named
    rw [← fragments_eq_pieces, ← fragments_eq_pieces, fragments_append, fragments_append,
      fragments_cons, fragmentsOf_of_underscores only, List.nil_append]
  · rw [nameOf, nameOf, fragments_eq_pieces, fragments_eq_pieces] at same
    exact flatMap_upperFirst_inj plain plain' (String.ofList_injective same)

/-- Regrouped pieces collide; a piece more is a capital more. -/
theorem nameOf_collisions_regrouped :
    nameOf ["_", "a1_b", "c"] = nameOf ["a1", "__", "b__c_"] ∧
      nameOf ["a1_b"] ≠ nameOf ["a1b"] := by
  obtain ⟨regrouped, _, _, _, distinct⟩ := nameOf_collisions
  refine ⟨regrouped _ _ (by decide), fun same => ?_⟩
  exact absurd ((distinct _ _ (by decide) (by decide)).mp same) (by decide)

end SchemaInterfaces.KeyPath
