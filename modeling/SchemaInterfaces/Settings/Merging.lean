import SchemaInterfaces.Settings.KeyExpression
import SchemaInterfaces.Settings.Value
import SchemaInterfaces.Text.Lowercase

/-!
# Merging sources of settings

A later source is put over the earlier ones. Tables are merged key by key and at every depth, any
other value replaces what was there. The case of keys does not count.
-/
namespace SchemaInterfaces.Setting

mutual

/-- Puts a value under a key. A table goes into the table that is there; where something else is
there, a table with entries takes its place. -/
def putUnder (key : String) (table : List (String × Setting)) : Setting → List (String × Setting)
  | .table _ incoming =>
    let key := Text.toLower key
    match table.lookup key with
    | none => insertEntry key (.table none (putEntries [] incoming)) table
    | some (.table source inner) => insertEntry key (.table source (putEntries inner incoming)) table
    | some _ =>
      if incoming.isEmpty then table
      else insertEntry key (.table none (putEntries [] incoming)) table
  | value => insertEntry (Text.toLower key) value table

/-- Puts entries into a table one after the other. -/
def putEntries (table : List (String × Setting)) :
    List (String × Setting) → List (String × Setting)
  | [] => table
  | (key, value) :: rest => putEntries (putUnder key table value) rest

end

/-- The place in a list of the given length that a position means. -/
def place (length : Nat) (position : Int) : Nat :=
  if position < 0 then length - position.natAbs else position.toNat

/-- Changes the item at a place; a list that is too short is filled up. -/
def updateItem (change : Setting → Setting) (index : Nat) (items : List Setting) : List Setting :=
  let filled := items ++ List.replicate (index + 1 - items.length) nothing
  filled.modify index change

/-- Puts a value at the end of a path. Values that the path cannot go through are replaced by
tables and lists. -/
def putAt (value : Setting) : List KeyStep → Setting → Setting
  | [], _ => value
  | [.key name], target => .table target.tableSource (putUnder name target.entries value)
  | .key name :: rest, target =>
    let key := Text.toLower name
    let inner := putAt value rest ((target.entries.lookup key).getD nothing)
    .table target.tableSource (insertEntry key inner target.entries)
  | .index position :: rest, target =>
    .list target.listSource
      (updateItem (putAt value rest) (place target.items.length position) target.items)

/-- Puts the entries of a source over what earlier sources gave. The keys of its topmost table are
key expressions. -/
def putSource (earlier : Setting) (entries : List (String × Setting)) : Setting :=
  entries.foldl (fun target entry => putAt entry.2 (KeyExpression.stepsOf entry.1) target) earlier

end SchemaInterfaces.Setting
