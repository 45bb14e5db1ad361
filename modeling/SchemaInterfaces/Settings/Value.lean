import SchemaInterfaces.Document
import SchemaInterfaces.Number.Digits

/-!
# Values of settings

The tree of values that a source of settings gives, in which every value remembers its source. A
table that is put together from several sources remembers none.
-/
namespace SchemaInterfaces

/-- A single value. -/
inductive Scalar where
  | unset
  | boolean (value : Bool)
  | integer (value : Int)
  | real (value : Binary64)
  | text (value : String)
  deriving DecidableEq, Repr

/-- A value of a source: a single one, a list, or a table of named values. -/
inductive Setting where
  | scalar (source : Option String) (value : Scalar)
  | list (source : Option String) (items : List Setting)
  | table (source : Option String) (entries : List (String × Setting))
  deriving Inhabited

/-- A number as a value; integers of more than 64 bits become real. -/
def Scalar.ofNumber : Number → Scalar
  | .integer n => if Digits.isWord n then .integer n else .real (Binary64.ofRatio (n < 0) n.natAbs 1)
  | .real value => .real value

namespace Setting

/-- The value without a source that stands for nothing. -/
def nothing : Setting := .scalar none .unset

mutual

/-- A document as the value of a source. -/
def ofDocument (source : String) : Document → Setting
  | .null => .scalar source .unset
  | .boolean value => .scalar source (.boolean value)
  | .number value => .scalar source (.ofNumber value)
  | .text value => .scalar source (.text value)
  | .sequence items => .list source (ofItems source items)
  | .mapping entries => .table source (ofEntries source entries)

/-- The items of a document as values of a source. -/
def ofItems (source : String) : List Document → List Setting
  | [] => []
  | item :: rest => ofDocument source item :: ofItems source rest

/-- The entries of a document as values of a source. -/
def ofEntries (source : String) : List (String × Document) → List (String × Setting)
  | [] => []
  | (key, value) :: rest => (key, ofDocument source value) :: ofEntries source rest

end

/-- The entries of a table; any other value has none. -/
def entries : Setting → List (String × Setting)
  | table _ entries => entries
  | _ => []

/-- The items of a list; any other value has none. -/
def items : Setting → List Setting
  | list _ items => items
  | _ => []

/-- The source of a table; a table that takes the place of another value has none. -/
def tableSource : Setting → Option String
  | table source _ => source
  | _ => none

/-- The source of a list; a list that takes the place of another value has none. -/
def listSource : Setting → Option String
  | list source _ => source
  | _ => none

end Setting

end SchemaInterfaces
