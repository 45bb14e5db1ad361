import SchemaInterfaces.Schema.Shape

/-!
# Interfaces

What is generated, before it becomes text: interfaces with typed fields, and fields that stand
alone because their root entry has no interface.
-/
namespace SchemaInterfaces

/-- The type of a field. -/
inductive FieldType where
  | primitive (kind : Primitive)
  | union (values : List String)
  | array (element : FieldType)
  | any
  | label (name : String)
  | opaqueObject
  | named (name : String)
  deriving DecidableEq, Repr

/-- A named and typed field. -/
structure Field where
  name : String
  type : FieldType
  description : Option String
  deriving DecidableEq, Repr

/-- An interface with its fields. -/
structure Interface where
  name : String
  description : Option String
  fields : List Field
  deriving DecidableEq, Repr

/-- One item of the generated code. -/
inductive Statement where
  | interface (declared : Interface)
  | field (field : Field)
  deriving DecidableEq, Repr

def Statement.isInterface : Statement → Bool
  | interface _ => true
  | field _ => false

/-- The type of the items of a list. -/
def FieldType.ofElement : Element → FieldType
  | .any => .any
  | .primitive kind => .primitive kind
  | .label name => .label name

/-- The type of a definition that has no interface of its own. -/
def FieldType.inline {α : Type} : Shape α → FieldType
  | .primitive kind => .primitive kind
  | .choice values => .union values
  | .list element => .array (.ofElement element)
  | .object _ => .opaqueObject
  | .opaqueObject => .opaqueObject

end SchemaInterfaces
