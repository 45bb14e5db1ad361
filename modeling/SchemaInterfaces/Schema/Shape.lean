import SchemaInterfaces.Document
import SchemaInterfaces.Text.Blank

/-!
# Shapes of schema definitions

A definition is a document that says what one property looks like: its `type`, and depending on it
an `enum`, the `items` or the `properties`. The shape is what that amounts to. Every document has a
shape; one that says nothing useful is opaque.
-/
namespace SchemaInterfaces

/-- The kinds of plain values. Schema types `integer` and `number` are one kind. -/
inductive Primitive where
  | text
  | number
  deriving DecidableEq, Repr

/-- The kind that a schema type stands for. -/
def Primitive.ofLabel? (label : String) : Option Primitive :=
  if label = "string" then some .text
  else if label = "integer" ∨ label = "number" then some .number
  else none

/-- What a list definition says about its items. -/
inductive Element where
  | any
  | primitive (kind : Primitive)
  | label (name : String)
  deriving DecidableEq, Repr

/-- What a definition looks like; `α` stands for the definitions of its properties. -/
inductive Shape (α : Type) where
  | primitive (kind : Primitive)
  | choice (values : List String)
  | list (element : Element)
  | object (properties : List (String × α))
  | opaqueObject
  deriving Repr

namespace Shape

/-- An object with at least one property gets an interface of its own. -/
def isExpanding {α : Type} : Shape α → Bool
  | object properties => !properties.isEmpty
  | _ => false

/-- The text under a key of a definition. -/
def label? (definition : Document) (key : String) : Option String :=
  (definition.get? key).bind Document.text?

/-- The members of an `enum` that are texts, in order and with repetitions. -/
def choices (members : List Document) : List String :=
  members.filterMap Document.text?

/-- What the `items` of a list definition say. -/
def element (definition : Document) : Element :=
  match (definition.get? "items").bind (label? · "type") with
  | none => .any
  | some name =>
    match Primitive.ofLabel? name with
    | some kind => .primitive kind
    | none => .label name

/-- The shape of a definition, given what its properties have been read as. Only an object type
looks at its properties. -/
def ofParts {α : Type} (definition : Document) (properties : Option (List (String × α))) :
    Shape α :=
  match label? definition "type" with
  | some "string" =>
    match (definition.get? "enum").bind Document.sequence? with
    | some members => .choice (choices members)
    | none => .primitive .text
  | some "integer" => .primitive .number
  | some "number" => .primitive .number
  | some "array" => .list (element definition)
  | some "object" =>
    match properties with
    | some properties => .object properties
    | none => .opaqueObject
  | _ => .opaqueObject

/-- The shape of a definition, its properties left as they stand. -/
def ofDocument (definition : Document) : Shape Document :=
  ofParts definition ((definition.get? "properties").bind Document.mapping?)

end Shape

/-- The description of a definition without blank characters at its ends; an empty one counts as
none. -/
def descriptionOf (definition : Document) : Option String :=
  match Shape.label? definition "description" with
  | some text => if (Text.trim text).isEmpty then none else some (Text.trim text)
  | none => none

end SchemaInterfaces
