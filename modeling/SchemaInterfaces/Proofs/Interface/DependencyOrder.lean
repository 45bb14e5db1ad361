import SchemaInterfaces.Proofs.Interface.Provenance

/-!
# The order of dependency

Generated statements never refer ahead. Names cannot say so, because different paths may have one
name; the statements are therefore taken together with the paths that account for them, and the
order is that of positions. All of it follows from the walk being ordered by `Precedes` and from
`Precedes` being asymmetric.
-/
namespace SchemaInterfaces

/-- The statements at the paths stand in the order of dependency. -/
structure DependencyOrdered (entries : List (String × Document)) (paths : List (List String)) :
    Prop where
  /-- One statement stands before another just when its path precedes the other path. -/
  order : ∀ {i j : Nat} {u v}, paths[i]? = some u → paths[j]? = some v →
    (i < j ↔ Precedes entries u v)
  /-- What lies below a path fills the places right before the path, from some place on. -/
  block : ∀ {j : Nat} {v}, paths[j]? = some v →
    ∃ start, start ≤ j ∧ ∀ {i u}, paths[i]? = some u → (IsBelow u v ↔ start ≤ i ∧ i < j)
  /-- All statements of an earlier root entry stand before those of a later one. -/
  entryOrder : ∀ {i j : Nat} {a b u v}, paths[i]? = some (a :: u) → paths[j]? = some (b :: v) →
    [a, b].Sublist (entries.map Prod.fst) → i < j
  /-- A name that a field refers to is that of an earlier interface of the same root entry, the one
  at the path of the property that the field stands for. -/
  reference : ∀ {i : Nat} {path declared}, paths[i]? = some path →
    (Hoisted.statements entries)[i]? = some (.interface declared) →
    ∀ field ∈ declared.fields, ∀ name ∈ field.type.references,
      ∃ j target, j < i ∧ paths[j]? = some (path ++ [field.name]) ∧
        (path ++ [field.name]).head? = path.head? ∧
        (Hoisted.statements entries)[j]? = some (.interface target) ∧ target.name = name
  /-- A field that stands alone refers to nothing. -/
  free : ∀ {i : Nat} {item}, (Hoisted.statements entries)[i]? = some (.field item) →
    item.type.references = []

/-! ### Positions -/

/-- In a list that is ordered by an asymmetric relation, the relation decides the positions. -/
theorem lt_iff_of_pairwise {α : Type} {R : α → α → Prop} (asymm : ∀ a b, R a b → ¬ R b a)
    {l : List α} (ordered : l.Pairwise R) {i j : Nat} {a b : α} (hi : l[i]? = some a)
    (hj : l[j]? = some b) : i < j ↔ R a b := by
  obtain ⟨hil, ha⟩ := List.getElem?_eq_some_iff.mp hi
  obtain ⟨hjl, hb⟩ := List.getElem?_eq_some_iff.mp hj
  have forward := List.pairwise_iff_getElem.mp ordered
  constructor
  · intro hlt
    have := forward i j hil hjl hlt
    rwa [ha, hb] at this
  · intro h
    rcases Nat.lt_trichotomy i j with hlt | rfl | hgt
    · exact hlt
    · have same : a = b := ha.symm.trans hb
      subst same
      exact absurd h (asymm a a h)
    · have back := forward j i hjl hil hgt
      rw [ha, hb] at back
      exact absurd h (asymm b a back)

/-- A path that parts before another one also parts before all that lies below that one. -/
theorem BranchesBefore.of_isBelow {entries : List (String × Document)}
    {first second path : List String} (h : BranchesBefore entries first second)
    (below : IsBelow path second) : BranchesBefore entries first path := by
  obtain ⟨common, a, b, afterA, afterB, siblings, rfl, rfl, hne, hs, order⟩ := h
  obtain ⟨rest, _, rfl⟩ := below
  exact ⟨common, a, b, afterA, afterB ++ rest, siblings, rfl, by simp, hne, hs, order⟩

/-- Between a path and what lies below it nothing else has a place. -/
theorem Precedes.isBelow_of_between {entries : List (String × Document)}
    (distinct : DistinctKeys entries) {first between last : List String}
    (below : IsBelow first last) (after : Precedes entries first between)
    (before : Precedes entries between last) : IsBelow between last := by
  rcases before with inside | branch
  · exact inside
  · exact absurd (.inr (branch.of_isBelow below)) (after.asymm distinct)

section Ordered

variable {entries : List (String × Document)} {paths : List (List String)}

theorem lt_iff_precedes (distinct : DistinctKeys entries)
    (ordered : paths.Pairwise (Precedes entries)) {i j : Nat} {u v : List String}
    (hi : paths[i]? = some u) (hj : paths[j]? = some v) : i < j ↔ Precedes entries u v :=
  lt_iff_of_pairwise (fun _ _ h => h.asymm distinct) ordered hi hj

theorem exists_block (distinct : DistinctKeys entries)
    (ordered : paths.Pairwise (Precedes entries)) {j : Nat} {v : List String}
    (hj : paths[j]? = some v) :
    ∃ start, start ≤ j ∧ ∀ {i u}, paths[i]? = some u → (IsBelow u v ↔ start ≤ i ∧ i < j) := by
  classical
  by_cases found : ∃ i : Nat, ∃ u, paths[i]? = some u ∧ IsBelow u v
  · -- The block begins with the first path below `v`; no other path comes in between.
    obtain ⟨first, hf, below⟩ := Nat.find_spec found
    have before : Nat.find found < j := (lt_iff_precedes distinct ordered hf hj).mpr (.inl below)
    refine ⟨Nat.find found, Nat.le_of_lt before, ?_⟩
    intro i u hi
    constructor
    · intro h
      have earlier := (lt_iff_precedes distinct ordered hi hj).mpr (.inl h)
      exact ⟨Nat.find_min' found ⟨u, hi, h⟩, earlier⟩
    · rintro ⟨hle, hlt⟩
      rcases Nat.eq_or_lt_of_le hle with same | later
      · rw [← same, hf] at hi
        cases hi
        exact below
      · exact Precedes.isBelow_of_between distinct below
          ((lt_iff_precedes distinct ordered hf hi).mp later)
          ((lt_iff_precedes distinct ordered hi hj).mp hlt)
  · refine ⟨j, Nat.le_refl j, ?_⟩
    intro i u hi
    constructor
    · intro h
      exact absurd ⟨i, u, hi, h⟩ found
    · rintro ⟨hle, hlt⟩
      omega

/-! ### References -/

theorem Accounts.getElem? (h : Accounts entries paths) {i : Nat} {path : List String}
    (hi : paths[i]? = some path) :
    ∃ statement, (Hoisted.statements entries)[i]? = some statement ∧
      statementAt? entries path = some statement := by
  have same := congrArg (·[i]?) h.map_statements
  simp only [List.getElem?_map, hi, Option.map_some] at same
  obtain ⟨statement, hs, he⟩ := Option.map_eq_some_iff.mp same
  exact ⟨statement, hs, he.symm⟩

theorem Accounts.exists_path (account : Accounts entries paths) {i : Nat} {statement : Statement}
    (hs : (Hoisted.statements entries)[i]? = some statement) :
    ∃ path, paths[i]? = some path ∧ statementAt? entries path = some statement := by
  have same := congrArg (·[i]?) account.map_statements
  simp only [List.getElem?_map, hs, Option.map_some] at same
  obtain ⟨path, hp, he⟩ := Option.map_eq_some_iff.mp same.symm
  exact ⟨path, hp, he⟩

theorem statementAt?_eq_interface {path : List String} {declared : Interface}
    (h : statementAt? entries path = some (.interface declared)) :
    ∃ definition, definitionAt? entries path = some definition ∧
      definition.isExpanding = true ∧ declared = Hoisted.interfaceOf path definition := by
  unfold statementAt? at h
  split at h
  · cases h
  next definition hd =>
    split at h
    next he =>
      cases h
      exact ⟨definition, hd, he, rfl⟩
    · split at h <;> cases h

theorem statementAt?_eq_field {path : List String} {item : Field}
    (h : statementAt? entries path = some (.field item)) : item.type.references = [] := by
  unfold statementAt? at h
  split at h
  · cases h
  next definition hd =>
    split at h
    · cases h
    next leaf =>
      split at h
      · cases h
        simp [Hoisted.fieldOf, leaf, FieldType.references_inline]
      · cases h

/-- A field that refers to a name stands for a property that expands, and the name is that of the
path of the property. -/
theorem expands_of_reference (distinct : DistinctKeys entries) {path : List String}
    {definition : Document} (hd : definitionAt? entries path = some definition)
    {field : Field} (member : field ∈ (Hoisted.interfaceOf path definition).fields)
    {name : String} (refers : name ∈ field.type.references) :
    ∃ property, definitionAt? entries (path ++ [field.name]) = some property ∧
      property.isExpanding = true ∧ name = KeyPath.nameOf (path ++ [field.name]) := by
  obtain ⟨⟨key, property⟩, inProperties, rfl⟩ := List.mem_map.mp member
  have inside := DistinctKeys.properties (definitionAt?_hasDistinctKeys distinct hd)
  have look := (inside.lookup_eq_some_iff key property).mpr inProperties
  cases he : property.isExpanding with
  | false => simp [Hoisted.fieldOf, he, FieldType.references_inline] at refers
  | true =>
    refine ⟨property, (definitionAt?_append path key definition hd).trans look, he, ?_⟩
    simpa [Hoisted.fieldOf, he, FieldType.references] using refers

theorem Accounts.exists_reference (account : Accounts entries paths)
    (distinct : DistinctKeys entries) (ordered : paths.Pairwise (Precedes entries))
    {i : Nat} {path : List String} {declared : Interface} (hi : paths[i]? = some path)
    (hs : (Hoisted.statements entries)[i]? = some (.interface declared)) {field : Field}
    (member : field ∈ declared.fields) {name : String} (refers : name ∈ field.type.references) :
    ∃ j target, j < i ∧ paths[j]? = some (path ++ [field.name]) ∧
      (path ++ [field.name]).head? = path.head? ∧
      (Hoisted.statements entries)[j]? = some (.interface target) ∧ target.name = name := by
  obtain ⟨statement, hs', at?⟩ := account.getElem? hi
  rw [hs] at hs'
  cases hs'
  obtain ⟨definition, hd, _, rfl⟩ := statementAt?_eq_interface at?
  obtain ⟨property, hp, he, rfl⟩ := expands_of_reference distinct hd member refers
  have listed : path ++ [field.name] ∈ paths :=
    (account.complete _).mpr (.inl ((expands_iff entries _).mpr ⟨property, hp, he⟩))
  obtain ⟨j, hj⟩ := List.mem_iff_getElem?.mp listed
  obtain ⟨target, ht, at'⟩ := account.getElem? hj
  rw [statementAt?_of_isExpanding hp he] at at'
  cases at'
  have below : IsBelow (path ++ [field.name]) path := ⟨[field.name], by simp, rfl⟩
  have before := (lt_iff_precedes distinct ordered hj hi).mpr (.inl below)
  refine ⟨j, _, before, hj, ?_, ht, rfl⟩
  cases path with
  | nil => cases hd
  | cons key rest => rfl

end Ordered

theorem Accounts.dependencyOrdered {entries : List (String × Document)}
    {paths : List (List String)} (account : Accounts entries paths)
    (distinct : DistinctKeys entries) (ordered : paths.Pairwise (Precedes entries)) :
    DependencyOrdered entries paths := by
  refine ⟨lt_iff_precedes distinct ordered, exists_block distinct ordered, ?_, ?_, ?_⟩
  · intro i j a b u v hi hj keys
    have differ : a ≠ b := by simpa using distinct.nodup.sublist keys
    exact (lt_iff_precedes distinct ordered hi hj).mpr (Precedes.of_keys differ keys u v)
  · intro i path declared hi hs field member name refers
    exact account.exists_reference distinct ordered hi hs member refers
  · intro i item hs
    have bound : i < paths.length := by
      have := congrArg List.length account.map_statements
      simp only [List.length_map] at this
      rw [← this]
      exact (List.getElem?_eq_some_iff.mp hs).1
    obtain ⟨statement, hs', at?⟩ := account.getElem? (List.getElem?_eq_getElem bound)
    rw [hs] at hs'
    cases hs'
    exact statementAt?_eq_field at?

/-- The interface of an object that is hoisted comes last, under the name that its place gets. -/
theorem Hoisted.last_interface_ofObject (path : KeyPath) (properties : List (String × Definition))
    (description : Option String) :
    ∃ front last, (Hoisted.ofObject path properties description).interfaces = front ++ [last] ∧
      (Hoisted.ofObject path properties description).type = .named last.name :=
  ⟨_, _, rfl, rfl⟩

/-- Generated statements stand in the order of dependency, and whatever an object is hoisted to
ends with the interface that its place refers to. -/
theorem statements_dependencyOrdered (entries : List (String × Document))
    (distinct : DistinctKeys entries) :
    (∃ paths, Accounts entries paths ∧ DependencyOrdered entries paths) ∧
    ∀ (path : KeyPath) (properties : List (String × Definition)) (description : Option String),
      ∃ front last, (Hoisted.ofObject path properties description).interfaces = front ++ [last] ∧
        (Hoisted.ofObject path properties description).type = .named last.name := by
  have account := accounts_originPaths distinct
  exact ⟨⟨_, account, account.dependencyOrdered distinct (pairwise_originPaths distinct)⟩,
    Hoisted.last_interface_ofObject⟩

/-- The interface at `context`, which has the name of the one at `context/_`. -/
def collidingReferrer : Interface where
  name := "Context"
  description := none
  fields := [⟨"a_b", .named "ContextAB", none⟩, ⟨"empty", .opaqueObject, none⟩,
    ⟨"a", .named "ContextA", none⟩, ⟨"_", .named "Context", none⟩]

theorem statements_collidingSchema :
    (Hoisted.statements collidingSchema)[5]? = some (.interface collidingReferrer) := by
  decide +kernel

/-- The last field of `Context` refers to its own name, and the interface of the property that it
stands for has that name and comes earlier. -/
theorem statements_dependencyOrdered_colliding :
    DistinctKeys collidingSchema ∧
      ∃ paths, Accounts collidingSchema paths ∧ DependencyOrdered collidingSchema paths ∧
        ∃ path j target, paths[5]? = some path ∧ j < 5 ∧ paths[j]? = some (path ++ ["_"]) ∧
          (Hoisted.statements collidingSchema)[j]? = some (.interface target) ∧
          target.name = collidingReferrer.name := by
  have distinct : DistinctKeys collidingSchema := by decide
  obtain ⟨⟨paths, account, ordered⟩, _⟩ := statements_dependencyOrdered collidingSchema distinct
  obtain ⟨path, place, _⟩ := account.exists_path statements_collidingSchema
  have field : ⟨"_", .named "Context", none⟩ ∈ collidingReferrer.fields := by decide
  obtain ⟨j, target, before, above, _, there, named⟩ :=
    ordered.reference place statements_collidingSchema _ field "Context" (.head _)
  exact ⟨distinct, paths, account, ordered, path, j, target, place, before, above, there, named⟩

end SchemaInterfaces
