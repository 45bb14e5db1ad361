import SchemaInterfaces.Settings.Value

/-!
# The order of keys

Tables with keys are hash tables. A run goes through them in the order of the hashes of their keys,
which has nothing to do with how they are written, and the next run has other hashes.
-/
namespace SchemaInterfaces

/-- The tables that a run goes through. -/
inductive HashTable where
  /-- The known formats of settings. -/
  | formats
  /-- A table in a source of settings, by the number of the source and the keys that lead to it. -/
  | source (number : Nat) (path : List String)
  /-- A table of the merged settings, by the keys that lead to it. -/
  | merged (path : List String)
  deriving DecidableEq, Repr

/-- A hash for each key of each table. -/
abbrev Hashes := HashTable → String → Nat

section

variable {α : Type} (hash : String → Nat)

/-- Puts an entry in front of the first one that does not have a smaller hash. -/
def placeByHash (entry : String × α) : List (String × α) → List (String × α)
  | [] => [entry]
  | first :: rest =>
    if hash entry.1 ≤ hash first.1 then entry :: first :: rest else first :: placeByHash entry rest

/-- Entries in the order of their hashes. -/
def visited (entries : List (String × α)) : List (String × α) :=
  entries.foldr (placeByHash hash) []

end

namespace Setting

mutual

/-- A value whose tables have their entries in the order of hashes; `path` leads to the value. A
list is taken as it is, since it is put in place as a whole. -/
def arranged (hashes : List String → String → Nat) (path : List String) : Setting → Setting
  | table source entries =>
    table source (visited (hashes path) (arrangedEntries hashes path entries))
  | list source items => list source items
  | scalar source value => scalar source value

/-- Entries whose values are arranged. -/
def arrangedEntries (hashes : List String → String → Nat) (path : List String) :
    List (String × Setting) → List (String × Setting)
  | [] => []
  | (key, value) :: rest =>
    (key, value.arranged hashes (path ++ [key])) :: arrangedEntries hashes path rest

end

/-- The entries of a source as a run goes through them. -/
def inOrder (hashes : List String → String → Nat) (entries : List (String × Setting)) :
    List (String × Setting) :=
  visited (hashes []) (arrangedEntries hashes [] entries)

end Setting

end SchemaInterfaces
