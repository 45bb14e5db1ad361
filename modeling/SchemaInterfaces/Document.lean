import SchemaInterfaces.Number.Binary64

/-!
# Document trees

The tree that a JSON or YAML text denotes. Entries of a mapping keep the order in which they are
written, which later decides the order of the generated fields.
-/
namespace SchemaInterfaces

/-- A number of a document: an integer, or a binary floating-point number. -/
inductive Number where
  | integer (value : Int)
  | real (value : Binary64)
  deriving DecidableEq, Repr

/-- A document tree. -/
inductive Document where
  | null
  | boolean (value : Bool)
  | number (value : Number)
  | text (value : String)
  | sequence (items : List Document)
  | mapping (entries : List (String × Document))
  deriving Inhabited

/-- Sets the value of a key. A key that is present keeps its place, a new one comes last. -/
def insertEntry {α : Type} (key : String) (value : α) : List (String × α) → List (String × α)
  | [] => [(key, value)]
  | (k, v) :: rest =>
    if k = key then (key, value) :: rest else (k, v) :: insertEntry key value rest

/-- Builds entries from pairs in writing order: of a repeated key the first place and the last
value count. -/
def entriesOf {α : Type} (pairs : List (String × α)) : List (String × α) :=
  pairs.foldl (fun entries pair => insertEntry pair.1 pair.2 entries) []

namespace Document

/-- The value under a key; only a mapping has any. -/
def get? (document : Document) (key : String) : Option Document :=
  match document with
  | mapping entries => entries.lookup key
  | _ => none

def text? : Document → Option String
  | text value => some value
  | _ => none

def sequence? : Document → Option (List Document)
  | sequence items => some items
  | _ => none

def mapping? : Document → Option (List (String × Document))
  | mapping entries => some entries
  | _ => none

end Document

end SchemaInterfaces
