import SchemaInterfaces.Interface.Hoisting
import SchemaInterfaces.Interface.Text
import SchemaInterfaces.Pointer

/-!
# Generating interfaces from a document

The entries of a mapping in the document become statements and then text. The mapping has to define
the root entry as an object; with that, every entry of it is generated.
-/
namespace SchemaInterfaces

/-- What to generate, and how to lay it out. -/
structure Generation where
  rootKey : String := "context"
  pointer : Option String := none
  banner : Option String := none
  layout : Layout := {}
  deriving DecidableEq, Repr

/-- Generated text with its counts. -/
structure Generated where
  code : String
  interfaceCount : Nat
  fieldCount : Nat
  deriving DecidableEq, Repr

namespace Generation

/-- The mapping that holds the entries. -/
def entries? (generation : Generation) (document : Document) :
    Option (List (String × Document)) :=
  let selected :=
    match generation.pointer with
    | some pointer => Pointer.select? document pointer
    | none => some document
  selected.bind Document.mapping?

/-- Whether the entries define the root entry as an object. -/
def definesRoot (generation : Generation) (entries : List (String × Document)) : Bool :=
  ((entries.lookup generation.rootKey).bind (Shape.label? · "type")) == some "object"

/-- The banner as comment lines with an empty line behind them. -/
def bannerText (generation : Generation) : String :=
  match generation.banner with
  | some banner =>
    String.join ((Text.lines banner).map fun line => "// " ++ line ++ "\n") ++ "\n"
  | none => ""

/-- Generates the interfaces of a document. The only failure is a root entry that is missing or no
object. -/
def result? (generation : Generation) (document : Document) : Option Generated :=
  match generation.entries? document with
  | none => none
  | some entries =>
    if generation.definesRoot entries then
      let statements := Hoisted.statements entries
      some {
        code := generation.bannerText ++ generation.layout.text statements
        interfaceCount := statements.countP (·.isInterface)
        fieldCount := statements.countP (!·.isInterface) }
    else none

/-- Why nothing was generated. -/
def missingRootMessage (generation : Generation) : String :=
  "Could not find an object definition for root key '" ++ generation.rootKey ++ "'"

end Generation

end SchemaInterfaces
