import SchemaInterfaces.Text.Uppercase

/-!
# Key paths and interface names

A nested object is reached from the root by a path of keys, and its interface is named after that
path. Keys fall into fragments at underscores; every fragment begins with a capital. Names are not
checked: two paths with the same fragments share a name, and characters other than the underscore
pass through.
-/
namespace SchemaInterfaces

/-- The keys from a root entry down to an object. -/
structure KeyPath where
  keys : List String
  deriving DecidableEq, Repr

namespace KeyPath

/-- The path above all entries. -/
def empty : KeyPath := ⟨[]⟩

/-- The path of a root entry. -/
def root (key : String) : KeyPath := ⟨[key]⟩

/-- The path one key further down. -/
def child (path : KeyPath) (key : String) : KeyPath := ⟨path.keys ++ [key]⟩

/-- The pieces between underscores, empty ones included. -/
def splitUnderscore : List Char → List (List Char)
  | [] => [[]]
  | c :: rest =>
    if c = '_' then [] :: splitUnderscore rest
    else
      match splitUnderscore rest with
      | [] => [[c]]
      | piece :: pieces => (c :: piece) :: pieces

/-- The pieces of a key that are not empty. -/
def fragmentsOf (key : List Char) : List (List Char) :=
  (splitUnderscore key).filter fun piece => !piece.isEmpty

/-- The fragments of all keys of a path. -/
def fragments (keys : List String) : List (List Char) :=
  keys.flatMap fun key => fragmentsOf key.toList

/-- A fragment with its first character in upper case. -/
def upperFirst : List Char → List Char
  | [] => []
  | first :: rest => Text.uppercase first ++ rest

/-- The name that a list of keys leads to. -/
def nameOf (keys : List String) : String :=
  String.ofList ((fragments keys).flatMap upperFirst)

/-- The name of the interface at a path. -/
def interfaceName (path : KeyPath) : String := nameOf path.keys

/-- The keys with dots between them. -/
def dotted (path : KeyPath) : String :=
  ".".intercalate path.keys

end KeyPath

end SchemaInterfaces
