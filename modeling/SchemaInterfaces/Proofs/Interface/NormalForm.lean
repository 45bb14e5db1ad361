import Mathlib.Data.List.Forall2
import Mathlib.Data.List.Induction
import SchemaInterfaces.Proofs.Interface.Hoisting
import SchemaInterfaces.Proofs.KeyPath

/-!
# What the generated statements depend on

The normal form of a definition is what is left of it when everything that generation does not look
at is dropped; it is read off the entries of the definition (`NormalForm.IsOf`). Two root mappings
are generated alike just when their entries agree in normal form and in key, or in name where the
entry gets an interface. One half is that nothing else in a document matters. The other half reads
the schema back from the flat list of statements: names are of no use for that, since they may
collide, but the interfaces of an object end in its own, whose fields say which properties have
interfaces in front of it. So the list is taken apart from its end, an argument that `readsBack`
carries through the tree.
-/
namespace SchemaInterfaces

/-- A description and a content, whose properties are normal forms again. -/
inductive NormalForm where
  | mk (description : Option String) (content : Content NormalForm)

/-- The normal form of a definition: its description, and its content with the normal forms of its
properties. -/
inductive NormalForm.IsOf : NormalForm → Document → Prop where
  | mk {definition : Document} {description : Option String} {content : Content NormalForm}
      (described : definition.IsDescribed description)
      (contains : content.IsOf IsOf definition) : IsOf (.mk description content) definition

/-- Two root entries that are generated alike: they have one normal form, and one key or, where
they expand, keys with one name. -/
structure SameEntry (first second : String × Document) : Prop where
  form : ∃ form : NormalForm, form.IsOf first.2 ∧ form.IsOf second.2
  key : if first.2.isExpanding then KeyPath.nameOf [first.1] = KeyPath.nameOf [second.1]
    else first.1 = second.1

/-! ### One normal form for each definition -/

/-- The normal form of a definition. -/
def normalForm (definition : Document) : NormalForm :=
  .mk (descriptionOf definition)
    (match definition.properties.attach with
    | [] => .plain (Shape.ofDocument definition)
    | first :: rest =>
      .object (first.1.1, normalForm first.1.2) (rest.map fun ⟨entry, _⟩ =>
        (entry.1, normalForm entry.2)))
termination_by sizeOf definition
decreasing_by
  · exact Document.sizeOf_lt_of_mem_properties first.2
  · exact Document.sizeOf_lt_of_mem_properties ‹_›

/-- A property with its key, in normal form. -/
def propertyForm (property : String × Document) : String × NormalForm :=
  (property.1, normalForm property.2)

section Form

variable {definition : Document}

theorem normalForm_of_not_isExpanding (h : definition.isExpanding = false) :
    normalForm definition =
      .mk (descriptionOf definition) (.plain (Shape.ofDocument definition)) := by
  have none : definition.properties.attach = [] := by
    simpa using Document.properties_eq_nil definition h
  rw [normalForm, none]

theorem normalForm_of_properties {first : String × Document} {rest : List (String × Document)}
    (h : definition.properties = first :: rest) :
    normalForm definition =
      .mk (descriptionOf definition) (.object (propertyForm first) (rest.map propertyForm)) := by
  have listed := (List.attach_map_subtype_val definition.properties).trans h
  rw [normalForm]
  cases ha : definition.properties.attach with
  | nil => simp [ha] at listed
  | cons x xs =>
    rw [ha, List.map_cons, List.cons.injEq] at listed
    obtain ⟨rfl, rfl⟩ := listed
    simp [propertyForm, Function.comp_def]

/-- Properties in normal form, if each has one normal form. -/
theorem forms_iff {properties : List (String × Document)} {forms : List (String × NormalForm)}
    (each : ∀ entry ∈ properties, ∀ form : NormalForm,
      form.IsOf entry.2 ↔ form = normalForm entry.2) :
    (forms.map Prod.fst = properties.map Prod.fst ∧
      List.Forall₂ NormalForm.IsOf (forms.map Prod.snd) (properties.map Prod.snd)) ↔
        forms = properties.map propertyForm := by
  induction properties generalizing forms with
  | nil => cases forms <;> simp
  | cons entry rest ih =>
    obtain ⟨own, others⟩ := List.forall_mem_cons.mp each
    cases forms with
    | nil => simp
    | cons form forms =>
      obtain ⟨key, form⟩ := form
      simp only [List.map_cons, List.cons.injEq, List.forall₂_cons, own, ← ih others, propertyForm,
        Prod.mk.injEq]
      tauto

/-- A definition has one normal form. -/
theorem NormalForm.isOf_iff (form : NormalForm) (definition : Document) :
    form.IsOf definition ↔ form = normalForm definition := by
  induction definition using Document.induction_on_properties generalizing form with
  | step definition ih =>
    obtain ⟨description, content⟩ := form
    have parts : (mk description content).IsOf definition ↔
        definition.IsDescribed description ∧ content.IsOf IsOf definition :=
      ⟨fun ⟨described, contains⟩ => ⟨described, contains⟩,
        fun ⟨described, contains⟩ => .mk described contains⟩
    rw [parts, isDescribed_iff]
    cases properties : definition.properties with
    | nil =>
      rw [Content.isOf_iff_plain _ _ properties,
        normalForm_of_not_isExpanding (Document.isExpanding_eq_false definition properties),
        NormalForm.mk.injEq]
    | cons first rest =>
      rw [Content.isOf_iff_object _ _ (by simp [properties]), normalForm_of_properties properties,
        NormalForm.mk.injEq]
      simp only [forms_iff fun entry member form => ih entry member form]
      simp [properties]

theorem exists_isOf_iff (first second : Document) :
    (∃ form : NormalForm, form.IsOf first ∧ form.IsOf second) ↔
      normalForm first = normalForm second := by
  simp only [NormalForm.isOf_iff, exists_eq_left]

theorem ofElement_injective : Function.Injective FieldType.ofElement := by
  intro first second h
  cases first <;> cases second <;> simp_all [FieldType.ofElement]

/-- A type that is written in place says just what the content without properties says. -/
theorem inline_eq_iff {α β : Type} (first second : Shape α) :
    FieldType.inline first = FieldType.inline second ↔
      (Content.plain first : Content β) = Content.plain second := by
  have elements (one other : Element) :
      FieldType.ofElement one = FieldType.ofElement other ↔ one = other :=
    ofElement_injective.eq_iff
  rcases first with (_ | _) | _ | _ | _ | _ <;> rcases second with (_ | _) | _ | _ | _ | _ <;>
    simp [FieldType.inline, Content.plain, elements]

end Form

/-- A normal form holds the description, the properties in normal form, and for a definition
without properties what the type in its place says. -/
theorem normalForm_eq_iff (first second : Document) :
    normalForm first = normalForm second ↔
      descriptionOf first = descriptionOf second ∧
      first.properties.map propertyForm = second.properties.map propertyForm ∧
      (first.properties = [] →
        FieldType.inline (Shape.ofDocument first) =
          FieldType.inline (Shape.ofDocument second)) := by
  cases hf : first.properties with
  | nil =>
    rw [normalForm_of_not_isExpanding (Document.isExpanding_eq_false first hf)]
    cases hs : second.properties with
    | nil =>
      rw [normalForm_of_not_isExpanding (Document.isExpanding_eq_false second hs),
        NormalForm.mk.injEq, ← inline_eq_iff]
      simp
    | cons property rest =>
      rw [normalForm_of_properties hs, NormalForm.mk.injEq]
      simp [content_plain_ne_object]
  | cons property rest =>
    rw [normalForm_of_properties hf]
    cases hs : second.properties with
    | nil =>
      rw [normalForm_of_not_isExpanding (Document.isExpanding_eq_false second hs),
        NormalForm.mk.injEq]
      simp [(content_plain_ne_object _ _ _).symm]
    | cons property' rest' =>
      rw [normalForm_of_properties hs, NormalForm.mk.injEq, Content.object.injEq]
      simp

/-- The keys of a definition that generation looks at. -/
def relevantKeys : List String := ["type", "description", "enum", "items", "properties"]

/-- No other key of a definition enters its normal form, whatever stands under it. -/
theorem normalForm_mapping_congr {first second : List (String × Document)}
    (same : ∀ key ∈ relevantKeys, first.lookup key = second.lookup key) :
    normalForm (.mapping first) = normalForm (.mapping second) := by
  have get (key : String) (relevant : key ∈ relevantKeys) :
      (Document.mapping first).get? key = (Document.mapping second).get? key := same key relevant
  have shape : Shape.ofDocument (.mapping first) = Shape.ofDocument (.mapping second) := by
    simp only [Shape.ofDocument, Shape.ofParts, Shape.element, Shape.label?,
      get "type" (by decide), get "enum" (by decide), get "items" (by decide),
      get "properties" (by decide)]
  have description : descriptionOf (.mapping first) = descriptionOf (.mapping second) := by
    simp only [descriptionOf, Shape.label?, get "description" (by decide)]
  have properties : (Document.mapping first).properties = (Document.mapping second).properties := by
    rw [Document.properties_eq, Document.properties_eq, shape]
  exact (normalForm_eq_iff _ _).mpr ⟨description, by rw [properties], fun _ => by rw [shape]⟩

theorem isExpanding_eq_of_normalForm {first second : Document}
    (same : normalForm first = normalForm second) : first.isExpanding = second.isExpanding := by
  have forms := ((normalForm_eq_iff first second).mp same).2.1
  have lengths : first.properties.length = second.properties.length := by
    simpa using congrArg List.length forms
  have hf := first.isExpanding_iff
  have hs := second.isExpanding_iff
  rw [← List.length_pos_iff] at hf hs
  rw [Bool.eq_iff_iff, hf, hs, lengths]

theorem KeyPath.nameOf_child {path path' : KeyPath} (h : path.interfaceName = path'.interfaceName)
    (key : String) : (path.child key).interfaceName = (path'.child key).interfaceName := by
  simp only [interfaceName, child, nameOf_append] at h ⊢
  rw [h]

/-! ### From normal forms to statements -/

/-- The statements that a definition at a path contributes when it expands. -/
def statementsAt (path : KeyPath) (definition : Document) : List Statement :=
  (Hoisted.ofDefinition path (.ofDocument definition)).interfaces.map .interface

/-- Fields are made from a property's normal form and the name of the object it belongs to. -/
theorem fieldOf_eq_iff (path path' : List String) (first second : String × Document) :
    Hoisted.fieldOf path first = Hoisted.fieldOf path' second ↔
      first.1 = second.1 ∧ descriptionOf first.2 = descriptionOf second.2 ∧
      first.2.isExpanding = second.2.isExpanding ∧
      (first.2.isExpanding = true →
        KeyPath.nameOf (path ++ [first.1]) = KeyPath.nameOf (path' ++ [second.1])) ∧
      (first.2.isExpanding = false →
        FieldType.inline (Shape.ofDocument first.2) =
          FieldType.inline (Shape.ofDocument second.2)) := by
  have apart (name : String) (definition : Document) :
      FieldType.named name ≠ .inline (Shape.ofDocument definition) := by
    intro same
    have := FieldType.references_inline (Shape.ofDocument definition)
    simp [← same, FieldType.references] at this
  unfold Hoisted.fieldOf
  cases hf : first.2.isExpanding <;> cases hs : second.2.isExpanding <;>
    simp [apart, (apart _ _).symm, and_comm]

theorem fieldOf_eq_of_propertyForm {path path' : List String}
    (name : KeyPath.nameOf path = KeyPath.nameOf path') {first second : String × Document}
    (same : propertyForm first = propertyForm second) :
    Hoisted.fieldOf path first = Hoisted.fieldOf path' second := by
  obtain ⟨key, form⟩ := Prod.mk.inj same
  obtain ⟨description, _, inline⟩ := (normalForm_eq_iff _ _).mp form
  refine (fieldOf_eq_iff _ _ _ _).mpr
    ⟨key, description, isExpanding_eq_of_normalForm form, fun _ => ?_, fun leaf => ?_⟩
  · rw [KeyPath.nameOf_append, KeyPath.nameOf_append, name, key]
  · exact inline (Document.properties_eq_nil _ leaf)

/-- Lists that agree after a map agree place by place. -/
theorem forall₂_of_map_eq {α β : Type} {f : α → β} {l l' : List α} (h : l.map f = l'.map f) :
    List.Forall₂ (fun a b => a ∈ l ∧ f a = f b) l l' := by
  refine (List.forall₂_and_left l l').mpr ⟨fun _ member => member, ?_⟩
  have places : List.Forall₂ Eq (l.map f) (l'.map f) := by rw [List.forall₂_eq_eq_eq, h]
  exact List.forall₂_map_right_iff.mp (List.forall₂_map_left_iff.mp places)

/-- Definitions with one normal form are hoisted alike under paths with one name. -/
theorem interfaces_eq_of_normalForm {path path' : KeyPath} {first second : Document}
    (same : normalForm first = normalForm second)
    (name : path.interfaceName = path'.interfaceName) :
    (Hoisted.ofDefinition path (.ofDocument first)).interfaces =
      (Hoisted.ofDefinition path' (.ofDocument second)).interfaces := by
  induction first using Document.induction_on_properties generalizing second path path' with
  | step first ih =>
    obtain ⟨description, forms, _⟩ := (normalForm_eq_iff first second).mp same
    have agree := isExpanding_eq_of_normalForm same
    cases hf : first.isExpanding with
    | false =>
      rw [Hoisted.interfaces_of_not_isExpanding path first hf,
        Hoisted.interfaces_of_not_isExpanding path' second (agree ▸ hf)]
    | true =>
      have pairs := forall₂_of_map_eq forms
      have below : (first.properties.flatMap fun entry =>
          (Hoisted.ofDefinition (path.child entry.1) (.ofDocument entry.2)).interfaces) =
          second.properties.flatMap fun entry =>
            (Hoisted.ofDefinition (path'.child entry.1) (.ofDocument entry.2)).interfaces := by
        rw [← List.forall₂_eq_eq_eq]
        refine List.rel_flatMap pairs fun a b ⟨member, same⟩ => ?_
        obtain ⟨key, form⟩ := Prod.mk.inj same
        rw [List.forall₂_eq_eq_eq, ih a member form (KeyPath.nameOf_child name a.1), key]
      have fields : first.properties.map (Hoisted.fieldOf path.keys) =
          second.properties.map (Hoisted.fieldOf path'.keys) := by
        rw [← List.forall₂_eq_eq_eq]
        exact List.rel_map (fun a b h => fieldOf_eq_of_propertyForm name h.2) pairs
      have own : Hoisted.interfaceOf path.keys first = Hoisted.interfaceOf path'.keys second := by
        rw [Hoisted.interfaceOf, Hoisted.interfaceOf, description, fields]
        exact congrArg (Interface.mk · _ _) name
      rw [Hoisted.interfaces_of_isExpanding path first hf,
        Hoisted.interfaces_of_isExpanding path' second (agree ▸ hf), below, own]

theorem statementsOf_eq (entry : String × Document) :
    Hoisted.statementsOf entry.1 (.ofDocument entry.2) =
      if entry.2.isExpanding then statementsAt (.root entry.1) entry.2
      else [.field (Hoisted.fieldOf [] entry)] := by
  rw [Hoisted.statementsOf, Hoisted.isExpanding_ofDocument]
  cases h : entry.2.isExpanding with
  | true => rfl
  | false =>
    simp [Hoisted.fieldOf, h, Definition.shape_ofDocument, FieldType.inline_map,
      Definition.description_ofDocument]

theorem statementsOf_eq_of_sameEntry {first second : String × Document}
    (same : SameEntry first second) :
    Hoisted.statementsOf first.1 (.ofDocument first.2) =
      Hoisted.statementsOf second.1 (.ofDocument second.2) := by
  have form := (exists_isOf_iff _ _).mp same.form
  have agree := isExpanding_eq_of_normalForm form
  have key := same.key
  rw [statementsOf_eq, statementsOf_eq, ← agree]
  cases he : first.2.isExpanding with
  | true =>
    simp only [he, if_true] at key ⊢
    have name : (KeyPath.root first.1).interfaceName = (KeyPath.root second.1).interfaceName := key
    rw [statementsAt, statementsAt, interfaces_eq_of_normalForm form name]
  | false =>
    simp only [he, Bool.false_eq_true, if_false] at key ⊢
    rw [fieldOf_eq_of_propertyForm rfl (Prod.ext key form)]

/-! ### From statements to normal forms -/

/-- A definition that can be read back from the end of a list of statements: two lists that end in
what such definitions contribute are equal only if the definitions and all in front of them are. -/
def ReadsBack (definition : Document) : Prop :=
  ∀ (other : Document) (path path' : KeyPath) (front front' : List Statement),
    definition.isExpanding = true → other.isExpanding = true →
    front ++ statementsAt path definition = front' ++ statementsAt path' other →
    front = front' ∧ normalForm definition = normalForm other ∧
      path.interfaceName = path'.interfaceName

theorem statementsAt_of_not_isExpanding (path : KeyPath) {definition : Document}
    (h : definition.isExpanding = false) : statementsAt path definition = [] := by
  rw [statementsAt, Hoisted.interfaces_of_not_isExpanding path definition h, List.map_nil]

theorem statementsAt_of_isExpanding (path : KeyPath) {definition : Document}
    (h : definition.isExpanding = true) :
    statementsAt path definition =
      (definition.properties.flatMap fun entry => statementsAt (path.child entry.1) entry.2) ++
        [.interface (Hoisted.interfaceOf path.keys definition)] := by
  simp only [statementsAt, Hoisted.interfaces_of_isExpanding path definition h, List.map_append,
    List.map_flatMap, List.map_singleton]

/-- A property that does not expand is all in its field. -/
theorem propertyForm_eq_of_not_isExpanding {path path' : List String}
    {entry entry' : String × Document}
    (field : Hoisted.fieldOf path entry = Hoisted.fieldOf path' entry')
    (leaf : entry.2.isExpanding = false) : propertyForm entry = propertyForm entry' := by
  obtain ⟨key, description, agree, _, inline⟩ := (fieldOf_eq_iff _ _ _ _).mp field
  have none : entry.2.properties = [] := Document.properties_eq_nil _ leaf
  have none' : entry'.2.properties = [] := Document.properties_eq_nil _ (agree ▸ leaf)
  have form : normalForm entry.2 = normalForm entry'.2 :=
    (normalForm_eq_iff _ _).mpr ⟨description, by rw [none, none'], fun _ => inline leaf⟩
  exact Prod.ext key form

/-- One property is read back from the statements in front of its object and its own field. -/
theorem propertyForm_eq_of_fieldOf {path path' : KeyPath} {entry entry' : String × Document}
    (readsBack : ReadsBack entry.2)
    (field : Hoisted.fieldOf path.keys entry = Hoisted.fieldOf path'.keys entry')
    {front front' : List Statement}
    (same : front ++ statementsAt (path.child entry.1) entry.2 =
      front' ++ statementsAt (path'.child entry'.1) entry'.2) :
    front = front' ∧ propertyForm entry = propertyForm entry' := by
  obtain ⟨key, _, agree, _⟩ := (fieldOf_eq_iff _ _ _ _).mp field
  cases he : entry.2.isExpanding with
  | true =>
    obtain ⟨fronts, form, _⟩ := readsBack _ _ _ _ _ he (agree ▸ he) same
    exact ⟨fronts, Prod.ext key form⟩
  | false =>
    rw [statementsAt_of_not_isExpanding _ he, statementsAt_of_not_isExpanding _ (agree ▸ he),
      List.append_nil, List.append_nil] at same
    exact ⟨same, propertyForm_eq_of_not_isExpanding field he⟩

/-- All properties of an object are read back, the last one first. -/
theorem propertyForms_eq_of_fields {path path' : KeyPath}
    {properties properties' : List (String × Document)}
    (readsBack : ∀ entry ∈ properties, ReadsBack entry.2)
    (fields : properties.map (Hoisted.fieldOf path.keys) =
      properties'.map (Hoisted.fieldOf path'.keys))
    {front front' : List Statement}
    (same : front ++ (properties.flatMap fun entry =>
        statementsAt (path.child entry.1) entry.2) =
      front' ++ properties'.flatMap fun entry => statementsAt (path'.child entry.1) entry.2) :
    front = front' ∧ properties.map propertyForm = properties'.map propertyForm := by
  induction properties generalizing properties' front front' with
  | nil =>
    have none : properties' = [] := by simpa using fields
    subst none
    exact ⟨by simpa using same, rfl⟩
  | cons entry rest ih =>
    cases properties' with
    | nil => simp at fields
    | cons entry' rest' =>
      obtain ⟨field, fields⟩ := List.cons.inj fields
      -- What the first property contributes is part of what stands in front of the rest.
      rw [List.flatMap_cons, List.flatMap_cons, ← List.append_assoc, ← List.append_assoc] at same
      obtain ⟨same, forms⟩ := ih (fun e member => readsBack e (.tail _ member)) fields same
      obtain ⟨fronts, form⟩ := propertyForm_eq_of_fieldOf (readsBack entry (.head _)) field same
      exact ⟨fronts, by rw [List.map_cons, List.map_cons, form, forms]⟩

theorem readsBack (definition : Document) : ReadsBack definition := by
  induction definition using Document.induction_on_properties with
  | step definition ih =>
    intro other path path' front front' he he' same
    rw [statementsAt_of_isExpanding path he, statementsAt_of_isExpanding path' he',
      ← List.append_assoc, ← List.append_assoc] at same
    obtain ⟨same, last⟩ := List.append_inj' same rfl
    have own : Hoisted.interfaceOf path.keys definition = Hoisted.interfaceOf path'.keys other := by
      simpa using last
    obtain ⟨name, description, fields⟩ := Interface.mk.inj own
    -- The fields of the last interface say which properties to take off the end next.
    obtain ⟨fronts, forms⟩ := propertyForms_eq_of_fields ih fields same
    refine ⟨fronts, (normalForm_eq_iff _ _).mpr ⟨description, forms, fun none => ?_⟩, name⟩
    exact absurd none ((Document.isExpanding_iff definition).mp he)

/-- The last statement of a root entry tells whether the entry expands. -/
theorem last_statementsOf (entry : String × Document) :
    ∃ front last, Hoisted.statementsOf entry.1 (.ofDocument entry.2) = front ++ [last] ∧
      last.isInterface = entry.2.isExpanding := by
  rw [statementsOf_eq]
  cases he : entry.2.isExpanding with
  | true => exact ⟨_, _, statementsAt_of_isExpanding _ he, rfl⟩
  | false => exact ⟨[], _, rfl, rfl⟩

/-- A root entry is read back from the end of the statements as well. -/
theorem sameEntry_of_statementsOf {entry entry' : String × Document}
    {front front' : List Statement}
    (same : front ++ Hoisted.statementsOf entry.1 (.ofDocument entry.2) =
      front' ++ Hoisted.statementsOf entry'.1 (.ofDocument entry'.2)) :
    front = front' ∧ SameEntry entry entry' := by
  have agree : entry.2.isExpanding = entry'.2.isExpanding := by
    obtain ⟨init, last, hl, isInterface⟩ := last_statementsOf entry
    obtain ⟨init', last', hl', isInterface'⟩ := last_statementsOf entry'
    rw [hl, hl', ← List.append_assoc, ← List.append_assoc] at same
    obtain ⟨_, lasts⟩ := List.append_inj' same rfl
    rw [← isInterface, ← isInterface', List.singleton_inj.mp lasts]
  rw [statementsOf_eq, statementsOf_eq, ← agree] at same
  cases he : entry.2.isExpanding with
  | true =>
    simp only [he, if_true] at same
    obtain ⟨fronts, form, name⟩ := readsBack _ _ _ _ _ _ he (agree ▸ he) same
    exact ⟨fronts, (exists_isOf_iff _ _).mpr form, by rw [if_pos he]; exact name⟩
  | false =>
    simp only [he, Bool.false_eq_true, if_false] at same
    obtain ⟨fronts, lasts⟩ := List.append_inj' same rfl
    have field : Hoisted.fieldOf [] entry = Hoisted.fieldOf [] entry' := by simpa using lasts
    obtain ⟨key, form⟩ := Prod.mk.inj (propertyForm_eq_of_not_isExpanding field he)
    exact ⟨fronts, (exists_isOf_iff _ _).mpr form, by rw [if_neg (by simp [he])]; exact key⟩

theorem statements_append_singleton (entries : List (String × Document))
    (entry : String × Document) :
    Hoisted.statements (entries ++ [entry]) =
      Hoisted.statements entries ++ Hoisted.statementsOf entry.1 (.ofDocument entry.2) := by
  simp [Hoisted.statements]

theorem statements_eq_nil {entries : List (String × Document)}
    (h : Hoisted.statements entries = []) : entries = [] := by
  cases entries with
  | nil => rfl
  | cons entry rest =>
    obtain ⟨front, last, hl, _⟩ := last_statementsOf entry
    simp [Hoisted.statements, hl] at h

/-- Root entries are read back from their statements, the last one first. -/
theorem sameEntries_of_statements {first second : List (String × Document)}
    (same : Hoisted.statements first = Hoisted.statements second) :
    List.Forall₂ SameEntry first second := by
  induction first using List.reverseRecOn generalizing second with
  | nil => rw [statements_eq_nil same.symm]; exact .nil
  | append_singleton front entry ih =>
    rcases List.eq_nil_or_concat second with rfl | ⟨front', entry', rfl⟩
    · exact absurd (statements_eq_nil same) (by simp)
    · rw [statements_append_singleton, List.concat_eq_append, statements_append_singleton] at same
      obtain ⟨fronts, last⟩ := sameEntry_of_statementsOf same
      rw [List.concat_eq_append]
      exact List.rel_append (ih fronts) (.cons last .nil)

/-- Every definition has one normal form, which depends on nothing but its relevant keys, and two
root mappings lead to the same statements just when their entries are generated alike. -/
theorem statements_eq_iff :
    (∀ definition : Document, ∃! form : NormalForm, form.IsOf definition) ∧
    (∀ first second : List (String × Document),
      (∀ key ∈ relevantKeys, first.lookup key = second.lookup key) →
        ∀ form : NormalForm, form.IsOf (.mapping first) ↔ form.IsOf (.mapping second)) ∧
    ∀ first second : List (String × Document),
      Hoisted.statements first = Hoisted.statements second ↔
        List.Forall₂ SameEntry first second := by
  refine ⟨fun definition => ?_, fun first second same form => ?_, fun first second => ?_⟩
  · simp only [NormalForm.isOf_iff, existsUnique_eq]
  · rw [NormalForm.isOf_iff, NormalForm.isOf_iff, normalForm_mapping_congr same]
  · constructor
    · exact sameEntries_of_statements
    · intro entries
      rw [← List.forall₂_eq_eq_eq]
      refine List.rel_flatMap entries fun entry entry' same => ?_
      rw [List.forall₂_eq_eq_eq]
      exact statementsOf_eq_of_sameEntry same

/-- A choice of texts, without anything else. -/
def quietEntries : List (String × Document) :=
  [("type", .text "string"), ("enum", .sequence [.text "a", .null])]

/-- The same choice with its keys in another order, among keys that say nothing here. -/
def noisyEntries : List (String × Document) :=
  [("title", .text "A"), ("enum", .sequence [.text "a", .null]), ("required", .boolean true),
    ("type", .text "string")]

theorem statements_eq_iff_noisy :
    (∀ key ∈ relevantKeys, quietEntries.lookup key = noisyEntries.lookup key) ∧
      Hoisted.statements [("x", .mapping quietEntries)] =
        Hoisted.statements [("x", .mapping noisyEntries)] := by
  obtain ⟨unique, irrelevant, alike⟩ := statements_eq_iff
  have same : ∀ key ∈ relevantKeys, quietEntries.lookup key = noisyEntries.lookup key := by
    simp only [relevantKeys, List.forall_mem_cons]
    exact ⟨rfl, rfl, rfl, rfl, rfl, by simp⟩
  obtain ⟨form, isForm, _⟩ := unique (.mapping quietEntries)
  have isForm' := (irrelevant _ _ same form).mp isForm
  exact ⟨same, (alike _ _).mpr (.cons ⟨⟨form, isForm, isForm'⟩, rfl⟩ .nil)⟩

end SchemaInterfaces
