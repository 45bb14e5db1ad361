import SchemaInterfaces.Schema.Shape

/-!
# Schema definitions

A definition with everything that the interfaces depend on and nothing else: a description and a
shape, whose properties are definitions again.
-/
namespace SchemaInterfaces

/-- A description and a shape. -/
inductive Definition where
  | mk (description : Option String) (shape : Shape Definition)

namespace Definition

def description : Definition → Option String
  | mk description _ => description

def shape : Definition → Shape Definition
  | mk _ shape => shape

mutual

/-- The definition that a document holds. -/
def ofDocument : Document → Definition
  | .mapping entries =>
    mk (descriptionOf (.mapping entries))
      (Shape.ofParts (.mapping entries) (propertiesIn entries))
  | .null => mk none .opaqueObject
  | .boolean _ => mk none .opaqueObject
  | .number _ => mk none .opaqueObject
  | .text _ => mk none .opaqueObject
  | .sequence _ => mk none .opaqueObject

/-- The definitions under the key `properties`, if it holds a mapping. -/
def propertiesIn : List (String × Document) → Option (List (String × Definition))
  | [] => none
  | (key, value) :: rest =>
    if key = "properties" then
      match value with
      | .mapping entries => some (ofEntries entries)
      | _ => none
    else propertiesIn rest

/-- The definitions of all entries of a mapping. -/
def ofEntries : List (String × Document) → List (String × Definition)
  | [] => []
  | (key, value) :: rest => (key, ofDocument value) :: ofEntries rest

end

end Definition

end SchemaInterfaces
