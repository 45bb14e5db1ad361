import SchemaInterfaces.Schema.Definition

/-!
# The properties of a definition

`Definition.ofDocument` reads a whole document at once. Here it is tied to the classification of
each single document (`Shape.ofDocument`, `descriptionOf`), and that to the entries of the document
(`Document.properties_eq`), so that later proofs follow the properties of a document and look at
nothing else in it. `Document.induction_on_properties` is the induction that goes with this view.
-/
namespace SchemaInterfaces

/-- The same shape, its properties read by `f`. -/
def Shape.map {α β : Type} (f : α → β) : Shape α → Shape β
  | primitive kind => primitive kind
  | choice values => choice values
  | list element => list element
  | object properties => object (properties.map fun entry => (entry.1, f entry.2))
  | opaqueObject => opaqueObject

theorem Shape.isExpanding_map {α β : Type} (f : α → β) (shape : Shape α) :
    (shape.map f).isExpanding = shape.isExpanding := by
  cases shape <;> simp [Shape.map, Shape.isExpanding]

/-- A shape is found without looking into the properties. -/
theorem Shape.ofParts_map {α β : Type} (f : α → β) (definition : Document)
    (properties : Option (List (String × α))) :
    Shape.ofParts definition (properties.map (List.map fun entry => (entry.1, f entry.2))) =
      (Shape.ofParts definition properties).map f := by
  unfold Shape.ofParts
  split
  · split <;> rfl
  · rfl
  · rfl
  · rfl
  · cases properties <;> rfl
  · rfl

namespace Definition

theorem ofEntries_eq_map (entries : List (String × Document)) :
    ofEntries entries = entries.map fun entry => (entry.1, ofDocument entry.2) := by
  induction entries with
  | nil => rfl
  | cons entry rest ih => simp only [ofEntries, ih, List.map_cons]

/-- The properties that are read are those under the first key `properties`. -/
theorem propertiesIn_eq (entries : List (String × Document)) :
    propertiesIn entries =
      ((entries.lookup "properties").bind Document.mapping?).map
        (List.map fun entry => (entry.1, ofDocument entry.2)) := by
  induction entries with
  | nil => rfl
  | cons entry rest ih =>
    obtain ⟨key, value⟩ := entry
    unfold propertiesIn
    by_cases h : key = "properties"
    · subst h
      rw [if_pos rfl, List.lookup_cons_self]
      cases value <;> simp [Document.mapping?, ofEntries_eq_map]
    · have hne : ("properties" == key) = false := by simpa using Ne.symm h
      rw [if_neg h, ih, List.lookup_cons, hne]

theorem description_ofDocument (document : Document) :
    (ofDocument document).description = descriptionOf document := by
  cases document <;> rfl

/-- Reading a document as a definition classifies it and reads its properties. -/
theorem shape_ofDocument (document : Document) :
    (ofDocument document).shape = (Shape.ofDocument document).map ofDocument := by
  cases document with
  | mapping entries =>
    simp only [ofDocument, shape, Shape.ofDocument, Document.get?]
    rw [propertiesIn_eq, Shape.ofParts_map]
  | null => rfl
  | boolean value => rfl
  | number value => rfl
  | text value => rfl
  | sequence items => rfl

end Definition

namespace Document

/-- The properties of a definition: the entries of the mapping under `properties`, if the type is
`object`. Every other definition has none. -/
def properties (definition : Document) : List (String × Document) :=
  match definition.get? "type", definition.get? "properties" with
  | some (.text "object"), some (.mapping properties) => properties
  | _, _ => []

/-- Whether a definition is an object with at least one property. -/
def isExpanding (definition : Document) : Bool := !definition.properties.isEmpty

theorem isExpanding_iff (definition : Document) :
    definition.isExpanding = true ↔ definition.properties ≠ [] := by
  simp [isExpanding]

/-- Only a definition that expands has anything below it. -/
theorem properties_eq_nil (definition : Document) (h : definition.isExpanding = false) :
    definition.properties = [] := by
  simpa [isExpanding] using h

theorem isExpanding_eq_false (definition : Document) (h : definition.properties = []) :
    definition.isExpanding = false := by
  simp [isExpanding, h]

/-- Properties are those of an object type, under the key `properties`. -/
theorem properties_eq_cons_iff (definition : Document) (first : String × Document)
    (rest : List (String × Document)) :
    definition.properties = first :: rest ↔
      definition.get? "type" = some (.text "object") ∧
        definition.get? "properties" = some (.mapping (first :: rest)) := by
  unfold properties
  split
  next properties type held => simp [type, held]
  next other =>
    constructor
    · intro h
      cases h
    · rintro ⟨type, held⟩
      exact absurd held (other _ type)

theorem label?_eq_some_iff (definition : Document) (key text : String) :
    Shape.label? definition key = some text ↔ definition.get? key = some (.text text) := by
  rw [Shape.label?, Option.bind_eq_some_iff]
  constructor
  · rintro ⟨value, held, same⟩
    cases value with
    | text value => rwa [← Option.some.inj same]
    | _ => cases same
  · intro held
    exact ⟨_, held, rfl⟩

theorem mapping?_eq_some_iff (document : Document) (entries : List (String × Document)) :
    document.mapping? = some entries ↔ document = .mapping entries := by
  cases document <;> simp [mapping?]

/-- The shape of an object holds what stands under the key `properties`. -/
theorem shape_eq_object_iff (definition : Document) (properties : List (String × Document)) :
    Shape.ofDocument definition = .object properties ↔
      definition.get? "type" = some (.text "object") ∧
        definition.get? "properties" = some (.mapping properties) := by
  have held : (definition.get? "properties").bind mapping? = some properties ↔
      definition.get? "properties" = some (.mapping properties) := by
    simp [Option.bind_eq_some_iff, mapping?_eq_some_iff]
  rw [← label?_eq_some_iff, ← held]
  unfold Shape.ofDocument Shape.ofParts
  split
  next label => split <;> simp [label]
  next label => simp [label]
  next label => simp [label]
  next label => simp [label]
  next label => cases (definition.get? "properties").bind mapping? <;> simp [label]
  next other =>
    constructor
    · intro h
      cases h
    · rintro ⟨label, _⟩
      exact absurd label other

/-- The properties are those that the shape has. -/
theorem properties_eq (definition : Document) :
    definition.properties =
      match Shape.ofDocument definition with
      | .object properties => properties
      | _ => [] := by
  cases h : definition.properties with
  | nil =>
    split
    next properties shape =>
      cases properties with
      | nil => rfl
      | cons first rest =>
        have := (properties_eq_cons_iff definition first rest).mpr
          ((shape_eq_object_iff definition _).mp shape)
        rw [h] at this
        cases this
    next => rfl
  | cons first rest =>
    rw [(shape_eq_object_iff definition _).mpr ((properties_eq_cons_iff definition _ _).mp h)]

theorem isExpanding_shape (definition : Document) :
    (Shape.ofDocument definition).isExpanding = definition.isExpanding := by
  rw [isExpanding, properties_eq]
  cases Shape.ofDocument definition <;> rfl

theorem shape_of_isExpanding (definition : Document) (h : definition.isExpanding = true) :
    Shape.ofDocument definition = .object definition.properties := by
  obtain ⟨first, rest, hp⟩ := List.exists_cons_of_ne_nil ((isExpanding_iff definition).mp h)
  rw [hp]
  exact (shape_eq_object_iff definition _).mpr ((properties_eq_cons_iff definition _ _).mp hp)

/-- Where a document has properties at all, they stand in its entries. -/
theorem entries_of_mem_properties (definition : Document) (entry : String × Document)
    (h : entry ∈ definition.properties) :
    ∃ entries, definition = .mapping entries ∧
      entries.lookup "properties" = some (.mapping definition.properties) := by
  obtain ⟨first, rest, hp⟩ := List.exists_cons_of_ne_nil (List.ne_nil_of_mem h)
  obtain ⟨_, held⟩ := (properties_eq_cons_iff definition first rest).mp hp
  rw [hp]
  cases definition with
  | mapping entries => exact ⟨entries, rfl, held⟩
  | null | boolean | number | text | sequence => cases held

theorem mem_of_lookup_eq_some {α : Type} (entries : List (String × α)) (key : String) (value : α)
    (h : entries.lookup key = some value) : (key, value) ∈ entries := by
  obtain ⟨front, back, hsplit, _⟩ := List.lookup_eq_some_iff.mp h
  simp [hsplit]

theorem lookup_eq_some_iff_of_nodup {α : Type} {entries : List (String × α)}
    (unique : (entries.map Prod.fst).Nodup) (key : String) (value : α) :
    entries.lookup key = some value ↔ (key, value) ∈ entries := by
  constructor
  · exact mem_of_lookup_eq_some entries key value
  · intro member
    obtain ⟨front, back, rfl⟩ := List.append_of_mem member
    refine List.lookup_eq_some_iff.mpr ⟨front, back, rfl, ?_⟩
    intro entry inFront
    rw [List.map_append, List.map_cons, List.nodup_append] at unique
    have differs := unique.2.2 entry.1 (List.mem_map_of_mem inFront) key (by simp)
    simpa using differs.symm

theorem sizeOf_lt_of_mem {entries : List (String × Document)} {entry : String × Document}
    (h : entry ∈ entries) : sizeOf entry.2 < sizeOf entries := by
  have member := List.sizeOf_lt_of_mem h
  obtain ⟨key, value⟩ := entry
  simp only [Prod.mk.sizeOf_spec] at member
  simp only
  omega

/-- A property is a smaller document than the definition that has it. -/
theorem sizeOf_lt_of_mem_properties {definition : Document} {entry : String × Document}
    (h : entry ∈ definition.properties) : sizeOf entry.2 < sizeOf definition := by
  obtain ⟨entries, hd, hl⟩ := entries_of_mem_properties definition entry h
  have inner := sizeOf_lt_of_mem h
  have outer := sizeOf_lt_of_mem (mem_of_lookup_eq_some _ _ _ hl)
  have whole : sizeOf definition = 1 + sizeOf entries := by rw [hd, Document.mapping.sizeOf_spec]
  simp only [Document.mapping.sizeOf_spec] at outer
  omega

/-- What passes from the properties of every definition to the definition holds of all. -/
theorem induction_on_properties {motive : Document → Prop}
    (step : ∀ definition, (∀ entry ∈ definition.properties, motive entry.2) → motive definition)
    (definition : Document) : motive definition :=
  step definition fun entry _ => induction_on_properties step entry.2
termination_by sizeOf definition
decreasing_by exact sizeOf_lt_of_mem_properties ‹_›

end Document

end SchemaInterfaces
