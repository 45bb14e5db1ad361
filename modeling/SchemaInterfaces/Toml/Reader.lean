import SchemaInterfaces.Toml.Lexical
import SchemaInterfaces.Toml.Scalar

/-!
# Reading TOML

The tables of a TOML text as a document. A table is defined once: by a header, by dotted keys, or
inline; a header may still define a table that so far only led to another one. An array of tables
grows by one table for every header of its name.
-/
namespace SchemaInterfaces.Toml

/-- What a key of a table under construction holds. An implicit table only led to another one so
far; a dotted one was made by a dotted key. -/
inductive Item where
  | value (value : Document)
  | table (isImplicit isDotted : Bool) (entries : List (String × Item))
  | tables (elements : List (List (String × Item)))

abbrev Entries := List (String × Item)

/-- Changes the table at the end of a path and makes the tables that lead there. The change is told
whether that table was made by a dotted key. A path of dotted keys does not enter tables that are
defined already; any path enters the last table of an array. -/
def updateAt (byDots : Bool) (change : Bool → Entries → Option Entries) :
    List String → Bool → Entries → Option Entries
  | [], isDotted, entries => change isDotted entries
  | key :: rest, _, entries =>
    match entries.lookup key with
    | none =>
      (updateAt byDots change rest byDots []).map fun inner =>
        insertEntry key (.table true byDots inner) entries
    | some (.value _) => none
    | some (.tables elements) =>
      match elements.getLast? with
      | none => none
      | some last =>
        (updateAt byDots change rest false last).map fun inner =>
          insertEntry key (.tables (elements.dropLast ++ [inner])) entries
    | some (.table isImplicit isDotted inner) =>
      if byDots && !isImplicit then none
      else
        (updateAt byDots change rest isDotted inner).map fun inner =>
          insertEntry key (.table isImplicit isDotted inner) entries

/-- Adds a key that is not there yet. -/
def addNew (key : String) (item : Item) (entries : Entries) : Option Entries :=
  if (entries.lookup key).isSome then none else some (insertEntry key item entries)

/-- Adds a value under dotted keys to a table. The table that receives it was made by dotted keys,
unless it is the table itself. -/
def addDotted (keys : List String) (value : Document) (entries : Entries) : Option Entries :=
  match keys.getLast? with
  | none => none
  | some key =>
    let path := keys.dropLast
    updateAt true (fun isDotted inner =>
      if isDotted == path.isEmpty then none else addNew key (.value value) inner) path false entries

/-- Defines a table by its header. -/
def openTable (keys : List String) (entries : Entries) : Option Entries :=
  match keys.getLast? with
  | none => none
  | some key =>
    updateAt false (fun _ inner =>
      match inner.lookup key with
      | none => some (insertEntry key (.table false false []) inner)
      | some (.table true false content) => some (insertEntry key (.table false false content) inner)
      | some _ => none) keys.dropLast false entries

/-- Adds a table to an array by its header. -/
def openElement (keys : List String) (entries : Entries) : Option Entries :=
  match keys.getLast? with
  | none => none
  | some key =>
    updateAt false (fun _ inner =>
      match inner.lookup key with
      | none => some (insertEntry key (.tables [[]]) inner)
      | some (.tables elements) => some (insertEntry key (.tables (elements ++ [[]])) inner)
      | some _ => none) keys.dropLast false entries

mutual

/-- The document of an item. -/
def Item.document : Item → Document
  | .value value => value
  | .table _ _ entries => .mapping (documents entries)
  | .tables elements => .sequence (elementDocuments elements)

/-- The documents of the entries of a table. -/
def documents : List (String × Item) → List (String × Document)
  | [] => []
  | (key, item) :: rest => (key, item.document) :: documents rest

/-- The documents of the tables of an array. -/
def elementDocuments : List (List (String × Item)) → List Document
  | [] => []
  | entries :: rest => .mapping (documents entries) :: elementDocuments rest

end

/-- Arrays and inline tables that may be nested, and keys that a path may have. -/
def maxDepth : Nat := 80

mutual

/-- Reads a value; `depth` more collections may be opened. Every step of `rounds` reads a character
or ends a collection. -/
def value? : Nat → Nat → List Char → Option (Document × List Char)
  | 0, _, _ => none
  | rounds + 1, depth, text =>
    match text with
    | '[' :: rest =>
      match depth with
      | 0 => none
      | depth + 1 =>
        match items? rounds depth rest with
        | some (items, rest) => some (.sequence items, rest)
        | none => none
    | '\x7b' :: rest =>
      match depth with
      | 0 => none
      | depth + 1 =>
        match skipBlank rest with
        | '\x7d' :: rest => some (.mapping [], rest)
        | rest =>
          match pairs? rounds depth [] rest with
          | some (entries, rest) => some (.mapping (documents entries), rest)
          | none => none
    | c :: _ =>
      if c == '"' || c == '\'' then
        (string? text).map fun (value, rest) => (.text (String.ofList value), rest)
      else
        let word := scalarWord text
        (scalar? word).map fun value => (value, text.drop word.length)
    | [] => none

/-- Reads the items of an array up to and with its closing bracket. Lines may end between them, and
a comma may stand behind the last. -/
def items? : Nat → Nat → List Char → Option (List Document × List Char)
  | 0, _, _ => none
  | rounds + 1, depth, text =>
    match skipLines (text.length + 1) text with
    | ']' :: rest => some ([], rest)
    | rest =>
      match value? rounds depth rest with
      | none => none
      | some (item, rest) =>
        match skipLines (rest.length + 1) rest with
        | ']' :: rest => some ([item], rest)
        | ',' :: rest =>
          (items? rounds depth rest).map fun (items, rest) => (item :: items, rest)
        | _ => none

/-- Reads the pairs of an inline table up to and with its closing brace. -/
def pairs? : Nat → Nat → Entries → List Char → Option (Entries × List Char)
  | 0, _, _, _ => none
  | rounds + 1, depth, entries, text =>
    match keyPath? (text.length + 1) text with
    | some (keys, '=' :: rest) =>
      if maxDepth < keys.length then none
      else
        match value? rounds depth (skipBlank rest) with
        | none => none
        | some (value, rest) =>
          match addDotted keys value entries with
          | none => none
          | some entries =>
            match skipBlank rest with
            | '\x7d' :: rest => some (entries, rest)
            | ',' :: rest => pairs? rounds depth entries rest
            | _ => none
    | _ => none

end

/-- The tables so far and the header under which further keys belong. -/
structure Progress where
  entries : Entries := []
  header : List String := []

/-- Reads the keys of a header up to and with its closing brackets. -/
def header? (closing text : List Char) : Option (List String × List Char) :=
  match keyPath? (text.length + 1) text with
  | some (keys, rest) =>
    if keys.length ≤ maxDepth ∧ rest.take closing.length = closing then
      (lineEnd? (rest.drop closing.length)).map fun rest => (keys, rest)
    else none
  | none => none

/-- Reads a line with a key and its value, which may go on over several lines. -/
def keyValue? (progress : Progress) (text : List Char) : Option (Progress × List Char) :=
  match keyPath? (text.length + 1) text with
  | some (keys, '=' :: rest) =>
    if maxDepth < keys.length then none
    else do
      let (value, rest) ← value? (2 * rest.length + 2) maxDepth (skipBlank rest)
      let entries ←
        updateAt false (fun _ inner => addDotted keys value inner) progress.header false
          progress.entries
      return ({ progress with entries }, ← lineEnd? rest)
  | _ => none

/-- Reads line after line. Every round ends one. -/
def lines? : Nat → Progress → List Char → Option Progress
  | 0, _, _ => none
  | rounds + 1, progress, text =>
    match skipLines (text.length + 1) text with
    | [] => some progress
    | '[' :: '[' :: rest => do
      let (keys, rest) ← header? [']', ']'] rest
      lines? rounds ⟨← openElement keys progress.entries, keys⟩ rest
    | '[' :: rest => do
      let (keys, rest) ← header? [']'] rest
      lines? rounds ⟨← openTable keys progress.entries, keys⟩ rest
    | rest => do
      let (progress, rest) ← keyValue? progress rest
      lines? rounds progress rest

/-- The entries of a TOML text. A byte order mark in front of it does not count. -/
def read? (text : String) : Option (List (String × Document)) :=
  let characters :=
    match text.toList with
    | '\uFEFF' :: rest => rest
    | characters => characters
  (lines? (characters.length + 1) {} characters).map fun progress => documents progress.entries

end SchemaInterfaces.Toml
