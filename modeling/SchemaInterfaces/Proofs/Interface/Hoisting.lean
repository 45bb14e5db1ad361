import Mathlib.Data.List.Forall2
import SchemaInterfaces.Interface.Hoisting
import SchemaInterfaces.Proofs.Schema.Content

/-!
# What hoisting yields

What the field of a property and the interface of an object have to be is told by what the schema
says (`IsFieldOf`, `IsInterfaceOf`). There is one equation for each function of `Hoisted`, said of
the document that is hoisted: which type the place of a definition gets (`type_ofDocument`) and
which interfaces come out of it (`interfaces_of_isExpanding`, `interfaces_of_not_isExpanding`).
Later proofs cite these and do not unfold the recursion again.
-/
namespace SchemaInterfaces

/-- The names that a type refers to. -/
def FieldType.references : FieldType → List String
  | named name => [name]
  | array element => element.references
  | primitive _ | union _ | any | label _ | opaqueObject => []

/-- A type that is written in place refers to no interface. -/
theorem FieldType.references_inline {α : Type} (shape : Shape α) :
    (FieldType.inline shape).references = [] := by
  cases shape with
  | list element => cases element <;> rfl
  | primitive kind => rfl
  | choice values => rfl
  | object properties => rfl
  | opaqueObject => rfl

theorem FieldType.inline_map {α β : Type} (f : α → β) (shape : Shape α) :
    FieldType.inline (shape.map f) = FieldType.inline shape := by
  cases shape <;> rfl

/-- The type that is written in the place of a definition with a content. -/
def Content.inlineType {α : Type} : Content α → FieldType
  | text => .primitive .text
  | choice members => .union members
  | number => .primitive .number
  | list .any => .array .any
  | list (.primitive kind) => .array (.primitive kind)
  | list (.label name) => .array (.label name)
  | object _ _ => .opaqueObject
  | opaqueObject => .opaqueObject

/-- The type that a definition without properties is written as. -/
def Document.IsWrittenAs (definition : Document) (type : FieldType) : Prop :=
  ∃ content : Content Document, content.IsOf (· = ·) definition ∧ content.inlineType = type

theorem Content.inlineType_plain {α β : Type} (shape : Shape α) :
    (plain shape : Content β).inlineType = FieldType.inline shape := by
  rcases shape with (_ | _) | _ | (_ | _ | _) | _ | _ <;> rfl

/-- A definition without properties is written in place as it is classified. -/
theorem isWrittenAs_iff {definition : Document} (h : definition.isExpanding = false)
    (type : FieldType) :
    definition.IsWrittenAs type ↔ type = .inline (Shape.ofDocument definition) := by
  have noProperties := Document.properties_eq_nil definition h
  simp only [Document.IsWrittenAs, Content.isOf_iff_plain _ _ noProperties, exists_eq_left,
    Content.inlineType_plain]
  exact eq_comm

/-- A type that is written in place refers to no interface. -/
theorem references_of_isWrittenAs {definition : Document} {type : FieldType}
    (written : definition.IsWrittenAs type) : type.references = [] := by
  obtain ⟨content, _, rfl⟩ := written
  rcases content with _ | _ | _ | (_ | _ | _) | _ | _ <;> rfl

namespace Hoisted

theorem ofProperties_eq (path : KeyPath) (properties : List (String × Definition)) :
    ofProperties path properties =
      (properties.map fun entry =>
        ⟨entry.1, (ofDefinition (path.child entry.1) entry.2).type, entry.2.description⟩,
      properties.flatMap fun entry => (ofDefinition (path.child entry.1) entry.2).interfaces) := by
  induction properties with
  | nil => rfl
  | cons entry rest ih => simp only [ofProperties, ih, List.map_cons, List.flatMap_cons]

/-- A definition that does not expand is written in place and needs no interface. -/
theorem ofDefinition_of_not_isExpanding (path : KeyPath) (definition : Definition)
    (h : definition.shape.isExpanding = false) :
    ofDefinition path definition = ⟨.inline definition.shape, []⟩ := by
  obtain ⟨description, shape⟩ := definition
  cases shape with
  | object properties =>
    cases properties with
    | nil => simp only [ofDefinition, Definition.shape, FieldType.inline]
    | cons first rest => simp [Definition.shape, Shape.isExpanding] at h
  | primitive kind => simp only [ofDefinition, Definition.shape, FieldType.inline]
  | choice values => simp only [ofDefinition, Definition.shape, FieldType.inline]
  | list element => simp only [ofDefinition, Definition.shape, FieldType.inline]
  | opaqueObject => simp only [ofDefinition, Definition.shape, FieldType.inline]

theorem ofDefinition_of_shape_object (path : KeyPath) (definition : Definition)
    (properties : List (String × Definition)) (h : definition.shape = .object properties)
    (hne : properties ≠ []) :
    ofDefinition path definition = ofObject path properties definition.description := by
  obtain ⟨description, shape⟩ := definition
  simp only [Definition.shape] at h
  subst h
  cases properties with
  | nil => exact absurd rfl hne
  | cons first rest => simp only [ofDefinition, ofObject, Definition.description]

/-- An object is hoisted to its name, and its own interface comes last. -/
theorem ofObject_eq (path : KeyPath) (properties : List (String × Definition))
    (description : Option String) :
    ofObject path properties description =
      ⟨.named path.interfaceName, (ofProperties path properties).2 ++
        [⟨path.interfaceName, description, (ofProperties path properties).1⟩]⟩ := rfl

/-! ### Hoisting a document -/

/-- The field of a property of the object at a path: a property that expands is referred to by the
name of its own path, every other is written in place. -/
def fieldOf (path : List String) (property : String × Document) : Field where
  name := property.1
  type :=
    if property.2.isExpanding then .named (KeyPath.nameOf (path ++ [property.1]))
    else .inline (Shape.ofDocument property.2)
  description := descriptionOf property.2

/-- The interface of the definition at a path. -/
def interfaceOf (path : List String) (definition : Document) : Interface where
  name := KeyPath.nameOf path
  description := descriptionOf definition
  fields := definition.properties.map (fieldOf path)

/-- A field stands for a property of the definition at a path: it has the key of the property and
its description, refers to the interface of a property that expands by the name of its own path, and
has the type of any other in its place. -/
structure IsFieldOf (path : List String) (property : String × Document) (field : Field) : Prop where
  name : field.name = property.1
  description : property.2.IsDescribed field.description
  reference : property.2.isExpanding = true →
    field.type = .named (KeyPath.nameOf (path ++ [property.1]))
  inline : property.2.isExpanding = false → property.2.IsWrittenAs field.type

/-- An interface stands for the definition at a path: it has the name of the path and the
description of the definition, and one field for each property in its place. -/
structure IsInterfaceOf (path : List String) (definition : Document) (declared : Interface) :
    Prop where
  name : declared.name = KeyPath.nameOf path
  description : definition.IsDescribed declared.description
  fields : List.Forall₂ (IsFieldOf path) definition.properties declared.fields

theorem isFieldOf_iff (path : List String) (property : String × Document) (field : Field) :
    IsFieldOf path property field ↔ field = fieldOf path property := by
  obtain ⟨name, type, description⟩ := field
  simp only [fieldOf, Field.mk.injEq]
  constructor
  · rintro ⟨rfl, described, reference, inline⟩
    refine ⟨rfl, ?_, (isDescribed_iff _ _).mp described⟩
    split
    next expands => exact reference expands
    next leaf =>
      have leaf := Bool.eq_false_iff.mpr leaf
      exact (isWrittenAs_iff leaf _).mp (inline leaf)
  · rintro ⟨rfl, rfl, rfl⟩
    refine ⟨rfl, (isDescribed_iff _ _).mpr rfl, fun expands => if_pos expands, fun leaf => ?_⟩
    rw [if_neg (by simp [leaf])]
    exact (isWrittenAs_iff leaf _).mpr rfl

theorem isInterfaceOf_iff (path : List String) (definition : Document) (declared : Interface) :
    IsInterfaceOf path definition declared ↔ declared = interfaceOf path definition := by
  obtain ⟨name, description, fields⟩ := declared
  have each : List.Forall₂ (IsFieldOf path) definition.properties fields ↔
      fields = definition.properties.map (fieldOf path) := by
    have same : IsFieldOf path = fun property field => fieldOf path property = field := by
      funext property field
      rw [isFieldOf_iff]
      exact propext eq_comm
    rw [same, ← List.forall₂_map_left_iff, List.forall₂_eq_eq_eq]
    exact eq_comm
  simp only [interfaceOf, Interface.mk.injEq]
  constructor
  · rintro ⟨rfl, described, inside⟩
    exact ⟨rfl, (isDescribed_iff _ _).mp described, each.mp inside⟩
  · rintro ⟨rfl, rfl, rfl⟩
    exact ⟨rfl, (isDescribed_iff _ _).mpr rfl, each.mpr rfl⟩

variable (path : KeyPath) (definition : Document)

theorem isExpanding_ofDocument :
    (Definition.ofDocument definition).shape.isExpanding = definition.isExpanding := by
  rw [Definition.shape_ofDocument, Shape.isExpanding_map, Document.isExpanding_shape]

theorem ofDocument_of_not_isExpanding (h : definition.isExpanding = false) :
    ofDefinition path (.ofDocument definition) = ⟨.inline (Shape.ofDocument definition), []⟩ := by
  have kept := isExpanding_ofDocument definition
  rw [ofDefinition_of_not_isExpanding path _ (kept.trans h), Definition.shape_ofDocument,
    FieldType.inline_map]

theorem ofDocument_of_isExpanding (h : definition.isExpanding = true) :
    ofDefinition path (.ofDocument definition) =
      ofObject path (definition.properties.map fun entry => (entry.1, .ofDocument entry.2))
        (descriptionOf definition) := by
  have shape : (Definition.ofDocument definition).shape =
      .object (definition.properties.map fun entry => (entry.1, .ofDocument entry.2)) := by
    rw [Definition.shape_ofDocument, Document.shape_of_isExpanding definition h]
    rfl
  have hne := (Document.isExpanding_iff definition).mp h
  rw [ofDefinition_of_shape_object path _ _ shape (by simpa using hne),
    Definition.description_ofDocument]

/-- The type that stands in the place of a definition. -/
theorem type_ofDocument :
    (ofDefinition path (.ofDocument definition)).type =
      if definition.isExpanding then .named path.interfaceName
      else .inline (Shape.ofDocument definition) := by
  cases h : definition.isExpanding with
  | false => simp only [ofDocument_of_not_isExpanding path definition h, Bool.false_eq_true,
      if_false]
  | true => simp only [ofDocument_of_isExpanding path definition h, ofObject_eq, if_true]

theorem interfaces_of_not_isExpanding (h : definition.isExpanding = false) :
    (ofDefinition path (.ofDocument definition)).interfaces = [] := by
  rw [ofDocument_of_not_isExpanding path definition h]

/-- An object is hoisted to the interfaces of its properties, in their order, and its own interface
behind them. -/
theorem ofObject_ofDocument (properties : List (String × Document))
    (description : Option String) :
    ofObject path (properties.map fun entry => (entry.1, .ofDocument entry.2)) description =
      ⟨.named path.interfaceName, (properties.flatMap fun entry =>
        (ofDefinition (path.child entry.1) (.ofDocument entry.2)).interfaces) ++
        [⟨path.interfaceName, description, properties.map (fieldOf path.keys)⟩]⟩ := by
  have fields : (properties.map fun entry => (⟨entry.1,
      (ofDefinition (path.child entry.1) (.ofDocument entry.2)).type,
      (Definition.ofDocument entry.2).description⟩ : Field)) =
      properties.map (fieldOf path.keys) := by
    apply List.map_congr_left
    intro entry _
    rw [type_ofDocument, Definition.description_ofDocument]
    rfl
  rw [ofObject_eq, ofProperties_eq]
  simp only [List.map_map, List.flatMap_map, Function.comp_def, fields]

/-- A definition that expands yields the interfaces of its properties, in their order, and its own
interface behind them. -/
theorem interfaces_of_isExpanding (h : definition.isExpanding = true) :
    (ofDefinition path (.ofDocument definition)).interfaces =
      (definition.properties.flatMap fun entry =>
        (ofDefinition (path.child entry.1) (.ofDocument entry.2)).interfaces) ++
      [interfaceOf path.keys definition] := by
  rw [ofDocument_of_isExpanding path definition h, ofObject_ofDocument]
  rfl

end Hoisted

end SchemaInterfaces
