import SchemaInterfaces.Proofs.Interface.DependencyOrder
import SchemaInterfaces.Proofs.Interface.TextTokens
import SchemaInterfaces.Proofs.KeyPath

/-!
# References by name

A field refers to an interface by nothing but its name, and in general names do not say which
interface is meant. On a schema in which every object is reached by plain keys they do: different
paths have different names (`KeyPath.nameOf_inj`), so a field refers to the interface of its own
property and to no other. The references then form the same forest as the objects of the schema.
-/
namespace SchemaInterfaces

/-- The fields in a statement. -/
def Statement.fields : Statement → List Field
  | interface declared => declared.fields
  | field item => [item]

/-- Field `k` of statement `i` refers by name to the interface that is statement `j`. -/
def RefersTo (statements : List Statement) (i k j : Nat) : Prop :=
  ∃ statement field target, statements[i]? = some statement ∧ statement.fields[k]? = some field ∧
    statements[j]? = some (.interface target) ∧ target.name ∈ field.type.references

/-- The keys of all objects that expand are plain. -/
def PlainlyKeyed (entries : List (String × Document)) : Prop :=
  ∀ path, Expands entries path → ∀ key ∈ path, KeyPath.isPlainKey key = true

/-- Names say which interface is meant, and so make a forest of the interfaces. -/
structure ResolvesUniquely (entries : List (String × Document)) (paths : List (List String)) :
    Prop where
  /-- No two interfaces have one name. -/
  names : ((Hoisted.statements entries).filterMap Statement.declaredName?).Nodup
  /-- A name that a field refers to is that of one interface only, the one at the path of the
  property that the field stands for. -/
  target : ∀ {i k : Nat} {path statement field}, paths[i]? = some path →
    (Hoisted.statements entries)[i]? = some statement → statement.fields[k]? = some field →
    ∀ name ∈ field.type.references,
      ∃ j declared, paths[j]? = some (path ++ [field.name]) ∧
        (Hoisted.statements entries)[j]? = some (.interface declared) ∧ declared.name = name ∧
        ∀ {j' : Nat} {other}, (Hoisted.statements entries)[j']? = some (.interface other) →
          other.name = name → j' = j
  /-- An interface that is not that of a root entry has one field that refers to it. -/
  referrer : ∀ {j : Nat} {path}, paths[j]? = some path → Expands entries path →
    path.length ≠ 1 → ∃! place : Nat × Nat,
      RefersTo (Hoisted.statements entries) place.1 place.2 j
  /-- Nothing refers to the interface of a root entry. -/
  root : ∀ {j : Nat} {key}, paths[j]? = some [key] →
    ∀ i k, ¬ RefersTo (Hoisted.statements entries) i k j
  /-- One interface refers to another just where its path is the one right above. -/
  edge : ∀ {i j : Nat} {u v}, paths[i]? = some u → paths[j]? = some v → Expands entries v →
    ((∃ k, RefersTo (Hoisted.statements entries) i k j) ↔ ∃ key, v = u ++ [key])

/-! ### Statements by their paths -/

section

variable {entries : List (String × Document)} {paths : List (List String)}

theorem Accounts.interface_at (account : Accounts entries paths) {j : Nat} {path : List String}
    (hj : paths[j]? = some path) (expands : Expands entries path) :
    ∃ definition, definitionAt? entries path = some definition ∧ definition.isExpanding = true ∧
      (Hoisted.statements entries)[j]? =
        some (.interface (Hoisted.interfaceOf path definition)) := by
  obtain ⟨definition, hd, he⟩ := (expands_iff entries path).mp expands
  obtain ⟨statement, hs, at?⟩ := account.getElem? hj
  rw [statementAt?_of_isExpanding hd he] at at?
  cases at?
  exact ⟨definition, hd, he, hs⟩

theorem Accounts.path_of_interface (account : Accounts entries paths) {j : Nat}
    {declared : Interface}
    (hs : (Hoisted.statements entries)[j]? = some (.interface declared)) :
    ∃ path, paths[j]? = some path ∧ Expands entries path ∧
      declared.name = KeyPath.nameOf path := by
  obtain ⟨path, hp, at?⟩ := account.exists_path hs
  obtain ⟨definition, hd, he, rfl⟩ := statementAt?_eq_interface at?
  exact ⟨path, hp, (expands_iff entries path).mpr ⟨definition, hd, he⟩, rfl⟩

theorem Accounts.index_unique (account : Accounts entries paths) {i j : Nat} {path : List String}
    (hi : paths[i]? = some path) (hj : paths[j]? = some path) : i = j := by
  have bound : i < paths.length := (List.getElem?_eq_some_iff.mp hi).1
  exact (List.getElem?_inj bound account.nodup).mp (hi.trans hj.symm)

theorem PlainlyKeyed.nameOf_inj (keyed : PlainlyKeyed entries) {u v : List String}
    (hu : Expands entries u) (hv : Expands entries v)
    (same : KeyPath.nameOf u = KeyPath.nameOf v) : u = v :=
  KeyPath.nameOf_inj (keyed u hu) (keyed v hv) same

/-- What a statement declares is the name of its path. -/
theorem expands_of_declaredName {path : List String} {name : String}
    (h : name ∈ (statementAt? entries path).bind Statement.declaredName?) :
    Expands entries path ∧ name = KeyPath.nameOf path := by
  obtain ⟨statement, at?, hn⟩ := Option.bind_eq_some_iff.mp h
  cases statement with
  | field item => cases hn
  | interface declared =>
    obtain ⟨definition, hd, he, rfl⟩ := statementAt?_eq_interface at?
    cases hn
    exact ⟨(expands_iff entries path).mpr ⟨definition, hd, he⟩, rfl⟩

theorem Accounts.nodup_names (account : Accounts entries paths) (keyed : PlainlyKeyed entries) :
    ((Hoisted.statements entries).filterMap Statement.declaredName?).Nodup := by
  have byPath : (Hoisted.statements entries).filterMap Statement.declaredName? =
      paths.filterMap fun path => (statementAt? entries path).bind Statement.declaredName? := by
    have same := congrArg (List.filterMap (·.bind Statement.declaredName?)) account.map_statements
    simpa only [List.filterMap_map, Function.comp_def, Option.bind_some] using same
  rw [byPath]
  refine List.Nodup.filterMap ?_ account.nodup
  intro u v name hu hv
  obtain ⟨expands, rfl⟩ := expands_of_declaredName hu
  obtain ⟨expands', same⟩ := expands_of_declaredName hv
  exact keyed.nameOf_inj expands expands' same

/-- The places of the fields are those of the properties. -/
theorem fields_getElem? (path : List String) (definition : Document) (k : Nat) :
    (Hoisted.interfaceOf path definition).fields[k]? =
      definition.properties[k]?.map (Hoisted.fieldOf path) := by
  simp [Hoisted.interfaceOf]

/-- A field refers to the interface at a path if it stands for the last key of the path, and the
statement that it belongs to for the keys before. -/
theorem Accounts.refersTo_iff (account : Accounts entries paths) (distinct : DistinctKeys entries)
    (keyed : PlainlyKeyed entries) {i k j : Nat} {u v : List String} (hi : paths[i]? = some u)
    (hj : paths[j]? = some v) (expands : Expands entries v) :
    RefersTo (Hoisted.statements entries) i k j ↔
      ∃ definition key property, definitionAt? entries u = some definition ∧
        definition.properties[k]? = some (key, property) ∧ v = u ++ [key] := by
  obtain ⟨below, _, _, atJ⟩ := account.interface_at hj expands
  constructor
  · rintro ⟨statement, field, target, hs, hk, ht, refers⟩
    rw [atJ] at ht
    cases ht
    obtain ⟨statement', hs', at?⟩ := account.getElem? hi
    rw [hs] at hs'
    cases hs'
    have member := List.mem_of_getElem? hk
    cases statement with
    | field item =>
      obtain rfl := List.mem_singleton.mp member
      rw [statementAt?_eq_field at?] at refers
      cases refers
    | interface declared =>
      obtain ⟨definition, hd, _, rfl⟩ := statementAt?_eq_interface at?
      obtain ⟨property, hp, he, same⟩ := expands_of_reference distinct hd member refers
      have inner : Expands entries (u ++ [field.name]) :=
        (expands_iff entries _).mpr ⟨property, hp, he⟩
      rw [Statement.fields, fields_getElem?] at hk
      obtain ⟨⟨key, value⟩, place, rfl⟩ := Option.map_eq_some_iff.mp hk
      exact ⟨definition, key, value, hd, place, keyed.nameOf_inj expands inner same⟩
  · rintro ⟨definition, key, property, hd, place, rfl⟩
    have isExpanding : definition.isExpanding = true :=
      (Document.isExpanding_iff definition).mpr (List.ne_nil_of_mem (List.mem_of_getElem? place))
    have above := (expands_iff entries u).mpr ⟨definition, hd, isExpanding⟩
    obtain ⟨definition', hd', _, atI⟩ := account.interface_at hi above
    rw [hd] at hd'
    cases hd'
    obtain ⟨inner, hp, he⟩ := (expands_iff entries _).mp expands
    have inside := DistinctKeys.properties (definitionAt?_hasDistinctKeys distinct hd)
    have look := (inside.lookup_eq_some_iff key property).mpr (List.mem_of_getElem? place)
    rw [definitionAt?_append u key definition hd, look] at hp
    cases hp
    refine ⟨_, Hoisted.fieldOf u (key, property), _, atI, ?_, atJ, ?_⟩
    · rw [Statement.fields, fields_getElem?, place]
      rfl
    · simp [Hoisted.fieldOf, he, FieldType.references, Hoisted.interfaceOf]

theorem Accounts.path_of_refersTo (account : Accounts entries paths) {i k j : Nat}
    (refers : RefersTo (Hoisted.statements entries) i k j) : ∃ path, paths[i]? = some path := by
  obtain ⟨statement, _, _, hs, _⟩ := refers
  obtain ⟨path, hp, _⟩ := account.exists_path hs
  exact ⟨path, hp⟩

/-- The last key of a path that expands is that of a property of the definition above. -/
theorem exists_property (distinct : DistinctKeys entries) {front : List String} {key : String}
    (expands : Expands entries (front ++ [key])) (nonempty : front ≠ []) :
    ∃ definition property, ∃ k : Nat, definitionAt? entries front = some definition ∧
      definition.isExpanding = true ∧ definition.properties[k]? = some (key, property) := by
  obtain ⟨definition, hd, he⟩ := expands.2 front nonempty (List.prefix_append front [key])
  obtain ⟨property, hp, _⟩ := (expands_iff entries _).mp expands
  rw [definitionAt?_append front key definition hd] at hp
  have inside := DistinctKeys.properties (definitionAt?_hasDistinctKeys distinct hd)
  obtain ⟨k, hk⟩ := List.mem_iff_getElem?.mp ((inside.lookup_eq_some_iff key property).mp hp)
  exact ⟨definition, property, k, hd, he, hk⟩

theorem DistinctKeys.index_unique (distinct : DistinctKeys entries) {k k' : Nat} {key : String}
    {value value' : Document} (h : entries[k]? = some (key, value))
    (h' : entries[k']? = some (key, value')) : k = k' := by
  have same : (entries.map Prod.fst)[k]? = (entries.map Prod.fst)[k']? := by
    rw [List.getElem?_map, List.getElem?_map, h, h']
    rfl
  have bound : k < (entries.map Prod.fst).length := by
    rw [List.length_map]
    exact (List.getElem?_eq_some_iff.mp h).1
  exact (List.getElem?_inj bound distinct.nodup).mp same

theorem Accounts.existsUnique_referrer (account : Accounts entries paths)
    (distinct : DistinctKeys entries) (keyed : PlainlyKeyed entries) {j : Nat}
    {path : List String} (hj : paths[j]? = some path) (expands : Expands entries path)
    (long : path.length ≠ 1) :
    ∃! place : Nat × Nat, RefersTo (Hoisted.statements entries) place.1 place.2 j := by
  obtain ⟨front, key, rfl⟩ := List.eq_nil_or_concat' path |>.resolve_left expands.1
  have nonempty : front ≠ [] := by
    rintro rfl
    exact long rfl
  obtain ⟨definition, property, k, hd, he, hk⟩ := exists_property distinct expands nonempty
  have above := (expands_iff entries front).mpr ⟨definition, hd, he⟩
  obtain ⟨i, hi⟩ := List.mem_iff_getElem?.mp ((account.complete front).mpr (.inl above))
  refine ⟨(i, k), (account.refersTo_iff distinct keyed hi hj expands).mpr
    ⟨definition, key, property, hd, hk, rfl⟩, ?_⟩
  rintro ⟨i', k'⟩ refers
  obtain ⟨u, hu⟩ := account.path_of_refersTo refers
  obtain ⟨definition', key', property', hd', hk', same⟩ :=
    (account.refersTo_iff distinct keyed hu hj expands).mp refers
  obtain ⟨rfl, rfl⟩ := List.append_singleton_inj.mp same
  rw [hd] at hd'
  cases hd'
  have inside := DistinctKeys.properties (definitionAt?_hasDistinctKeys distinct hd)
  exact Prod.ext (account.index_unique hu hi) (inside.index_unique hk' hk)

/-- The last key of the path of a target is that of a property, never that of a root entry. -/
theorem Accounts.not_refersTo_root (account : Accounts entries paths)
    (distinct : DistinctKeys entries) (keyed : PlainlyKeyed entries) {j : Nat} {key : String}
    (hj : paths[j]? = some [key]) (i k : Nat) :
    ¬ RefersTo (Hoisted.statements entries) i k j := by
  intro refers
  obtain ⟨u, hu⟩ := account.path_of_refersTo refers
  obtain ⟨_, _, target, _, _, ht, _⟩ := id refers
  obtain ⟨path, hp, expands, _⟩ := account.path_of_interface ht
  rw [hj] at hp
  cases hp
  obtain ⟨definition, last, _, hd, _, same⟩ :=
    (account.refersTo_iff distinct keyed hu hj expands).mp refers
  cases u with
  | nil => cases hd
  | cons first rest => simp at same

theorem Accounts.exists_refersTo_iff (account : Accounts entries paths)
    (distinct : DistinctKeys entries) (keyed : PlainlyKeyed entries) {i j : Nat}
    {u v : List String} (hi : paths[i]? = some u) (hj : paths[j]? = some v)
    (expands : Expands entries v) :
    (∃ k, RefersTo (Hoisted.statements entries) i k j) ↔ ∃ key, v = u ++ [key] := by
  simp only [account.refersTo_iff distinct keyed hi hj expands]
  constructor
  · rintro ⟨k, definition, key, property, _, _, same⟩
    exact ⟨key, same⟩
  · rintro ⟨key, rfl⟩
    have nonempty : u ≠ [] := by
      rintro rfl
      have known := (account.complete []).mp (List.mem_of_getElem? hi)
      simp [Expands] at known
    obtain ⟨definition, property, k, hd, _, hk⟩ := exists_property distinct expands nonempty
    exact ⟨k, definition, key, property, hd, hk, rfl⟩

/-- The interface that a field refers to is told by its name alone. -/
theorem Accounts.exists_target (account : Accounts entries paths)
    (distinct : DistinctKeys entries) (keyed : PlainlyKeyed entries) {i k : Nat}
    {path : List String} {statement : Statement} {field : Field} (hi : paths[i]? = some path)
    (hs : (Hoisted.statements entries)[i]? = some statement)
    (hk : statement.fields[k]? = some field) {name : String}
    (refers : name ∈ field.type.references) :
    ∃ j declared, paths[j]? = some (path ++ [field.name]) ∧
      (Hoisted.statements entries)[j]? = some (.interface declared) ∧ declared.name = name ∧
      ∀ {j' : Nat} {other}, (Hoisted.statements entries)[j']? = some (.interface other) →
        other.name = name → j' = j := by
  obtain ⟨statement', hs', at?⟩ := account.getElem? hi
  rw [hs] at hs'
  cases hs'
  have member := List.mem_of_getElem? hk
  cases statement with
  | field item =>
    obtain rfl := List.mem_singleton.mp member
    rw [statementAt?_eq_field at?] at refers
    cases refers
  | interface declared =>
    obtain ⟨definition, hd, _, rfl⟩ := statementAt?_eq_interface at?
    obtain ⟨property, hp, he, rfl⟩ := expands_of_reference distinct hd member refers
    have expands : Expands entries (path ++ [field.name]) :=
      (expands_iff entries _).mpr ⟨property, hp, he⟩
    obtain ⟨j, hj⟩ := List.mem_iff_getElem?.mp ((account.complete _).mpr (.inl expands))
    obtain ⟨target, _, _, ht⟩ := account.interface_at hj expands
    refine ⟨j, _, hj, ht, rfl, ?_⟩
    intro j' other ho same
    obtain ⟨v, hv, expands', named⟩ := account.path_of_interface ho
    obtain rfl := keyed.nameOf_inj expands' expands (named.symm.trans same)
    exact account.index_unique hv hj

/-- Where all objects have plain keys, references by name are resolved in one way: they make a
forest of the interfaces, which is that of the objects of the schema. -/
theorem references_resolve (entries : List (String × Document)) (distinct : DistinctKeys entries)
    (keyed : PlainlyKeyed entries) :
    ∃ paths, Accounts entries paths ∧ ResolvesUniquely entries paths := by
  have account := accounts_originPaths distinct
  refine ⟨_, account, ?_⟩
  exact {
    names := account.nodup_names keyed
    target := fun hi hs hk _ refers => account.exists_target distinct keyed hi hs hk refers
    referrer := fun hj expands long =>
      account.existsUnique_referrer distinct keyed hj expands long
    root := fun hj => account.not_refersTo_root distinct keyed hj
    edge := fun hi hj expands => account.exists_refersTo_iff distinct keyed hi hj expands }

end

/-! ### A schema with plain keys -/

/-- Checks the keys of all objects; no object may lie deeper than `depth` keys. -/
def isPlainlyKeyed : Nat → List (String × Document) → Bool
  | 0, entries => entries.all fun entry => !entry.2.isExpanding
  | depth + 1, entries => entries.all fun entry =>
    !entry.2.isExpanding ||
      (KeyPath.isPlainKey entry.1 && isPlainlyKeyed depth entry.2.properties)

theorem plainlyKeyed_of_isPlainlyKeyed {depth : Nat} {entries : List (String × Document)}
    (checked : isPlainlyKeyed depth entries = true) : PlainlyKeyed entries := by
  intro path expands
  induction path generalizing depth entries with
  | nil => simp
  | cons first rest ih =>
    obtain ⟨definition, hd, he⟩ := expands.2 [first] (by simp) (by simp)
    have member := Document.mem_of_lookup_eq_some entries first definition hd
    cases depth with
    | zero =>
      have none := List.all_eq_true.mp checked _ member
      simp [he] at none
    | succ depth =>
      have inner := List.all_eq_true.mp checked _ member
      simp only [he, Bool.not_true, Bool.false_or, Bool.and_eq_true] at inner
      intro key inPath
      rcases List.mem_cons.mp inPath with rfl | inRest
      · exact inner.1
      · have nonempty : rest ≠ [] := List.ne_nil_of_mem inRest
        obtain ⟨last, hl, hx⟩ := (expands_iff entries _).mp expands
        rw [definitionAt?_cons _ _ _ nonempty] at hl
        obtain ⟨outer, ho, hl⟩ := Option.bind_eq_some_iff.mp hl
        have same : outer = definition := Option.some.inj (ho.symm.trans hd)
        subst same
        exact ih inner.2 ((expands_iff _ rest).mpr ⟨last, hl, hx⟩) key inRest

/-- A schema in which only the keys of objects are plain, and in which paths of different lengths
are spelled with the same letters. -/
def plainSchema : List (String × Document) := [
  ("context", objectWith [
    ("a", objectWith [("bc", objectWith [("x_y", typed "string")])]),
    ("ab", objectWith [("c", objectWith [("Not-A-Name", typed "array")])])]),
  ("contexta", objectWith [("b1", objectWith [("z", typed "number")])]),
  ("no_object", typed "string")]

/-- The interface at `contexta`, whose field refers to the one at `contexta/b1`. -/
def plainReferrer : Interface where
  name := "Contexta"
  description := none
  fields := [⟨"b1", .named "ContextaB1", none⟩]

theorem statements_plainSchema :
    (Hoisted.statements plainSchema)[6]? = some (.interface plainReferrer) := by
  decide +kernel

/-- The reference to `ContextaB1` is to the interface of the property that the field stands for, and
no other interface has that name. -/
theorem references_resolve_plain :
    DistinctKeys plainSchema ∧ PlainlyKeyed plainSchema ∧
      ∃ paths, Accounts plainSchema paths ∧ ResolvesUniquely plainSchema paths ∧
        ∃ path j declared, paths[6]? = some path ∧ paths[j]? = some (path ++ ["b1"]) ∧
          (Hoisted.statements plainSchema)[j]? = some (.interface declared) ∧
          declared.name = "ContextaB1" ∧
          ∀ {j' : Nat} {other}, (Hoisted.statements plainSchema)[j']? = some (.interface other) →
            other.name = "ContextaB1" → j' = j := by
  have distinct : DistinctKeys plainSchema := by decide
  have checked : isPlainlyKeyed 3 plainSchema = true := by decide
  have keyed := plainlyKeyed_of_isPlainlyKeyed checked
  obtain ⟨paths, account, resolves⟩ := references_resolve plainSchema distinct keyed
  obtain ⟨path, place, _⟩ := account.exists_path statements_plainSchema
  have field : (Statement.interface plainReferrer).fields[0]? =
      some ⟨"b1", .named "ContextaB1", none⟩ := rfl
  obtain ⟨j, declared, target, there, named, unique⟩ :=
    resolves.target place statements_plainSchema field "ContextaB1" (.head _)
  exact ⟨distinct, keyed, paths, account, resolves, path, j, declared, place, target, there, named,
    unique⟩

end SchemaInterfaces
