import SchemaInterfaces.Interface.Basic
import SchemaInterfaces.KeyPath
import SchemaInterfaces.Schema.Definition

/-!
# Hoisting nested objects

Every object with properties becomes an interface at the top level, and the field that held it
refers to the interface by name. The interfaces below an object come before its own, so no
reference runs ahead of its interface.
-/
namespace SchemaInterfaces

/-- A type together with the interfaces that it needs, each before the ones that refer to it. -/
structure Hoisted where
  type : FieldType
  interfaces : List Interface
  deriving DecidableEq, Repr

namespace Hoisted

mutual

/-- The type of a definition at a path. -/
def ofDefinition (path : KeyPath) : Definition → Hoisted
  | .mk description (.object (first :: rest)) =>
    let (fields, below) := ofProperties path (first :: rest)
    ⟨.named path.interfaceName, below ++ [⟨path.interfaceName, description, fields⟩]⟩
  | .mk _ (.object []) => ⟨.opaqueObject, []⟩
  | .mk _ (.primitive kind) => ⟨.primitive kind, []⟩
  | .mk _ (.choice values) => ⟨.union values, []⟩
  | .mk _ (.list element) => ⟨.array (.ofElement element), []⟩
  | .mk _ .opaqueObject => ⟨.opaqueObject, []⟩

/-- The fields for the properties of the object at a path, and the interfaces below it. -/
def ofProperties (path : KeyPath) : List (String × Definition) → List Field × List Interface
  | [] => ([], [])
  | (key, definition) :: rest =>
    let inner := ofDefinition (path.child key) definition
    let (fields, below) := ofProperties path rest
    (⟨key, inner.type, definition.description⟩ :: fields, inner.interfaces ++ below)

end

/-- The interface of an object whose properties and description are given, with all below it. The
object gets its interface even without properties. -/
def ofObject (path : KeyPath) (properties : List (String × Definition))
    (description : Option String) : Hoisted :=
  let (fields, below) := ofProperties path properties
  ⟨.named path.interfaceName, below ++ [⟨path.interfaceName, description, fields⟩]⟩

/-- The statements of one root entry: its interfaces, or a field that stands alone. -/
def statementsOf (key : String) (definition : Definition) : List Statement :=
  if definition.shape.isExpanding then
    (ofDefinition (.root key) definition).interfaces.map .interface
  else [.field ⟨key, .inline definition.shape, definition.description⟩]

/-- The statements of all root entries, in order. -/
def statements (entries : List (String × Document)) : List Statement :=
  entries.flatMap fun (key, document) => statementsOf key (.ofDocument document)

end Hoisted

end SchemaInterfaces
