import SchemaInterfaces.Yaml.Quoted

/-!
# Anchors, tags and directives

The names that nodes are given and referred by, the tags that say what a node is, and the lines in
front of a document that set the version and shorten tags.
-/
namespace SchemaInterfaces.Yaml

/-- A name behind `&` or `*`. It ends at a blank, a break or one of some marks. -/
def anchorName? (cursor : Cursor) : Option (String × Cursor) :=
  let cursor := cursor.advance 1
  let name := cursor.rest.takeWhile isWord
  let after := cursor.advance name.length
  let ended := endsWord after.rest ||
    after.rest.head?.any fun c =>
      c == '?' || c == ':' || c == ',' || c == ']' || c == '\x7d' || c == '%' || c == '@'
        || c == '\x60'
  if name.isEmpty || !ended then none else some (String.ofList name, after)

/-- Characters of a tag. The marks of a list are among them only in a tag written out in full. -/
def isTagCharacter (full : Bool) (c : Char) : Bool :=
  isWord c || c == ';' || c == '/' || c == '?' || c == ':' || c == '@' || c == '&' || c == '='
    || c == '+' || c == '$' || c == '.' || c == '!' || c == '~' || c == '*' || c == '\''
    || c == '(' || c == ')' || (full && (c == ',' || c == '[' || c == ']'))

/-- The number of bytes of a character that begins with the given byte. -/
def encodedLength? (byte : Nat) : Option Nat :=
  if byte < 0x80 then some 1
  else if 0xC0 ≤ byte ∧ byte < 0xE0 then some 2
  else if 0xE0 ≤ byte ∧ byte < 0xF0 then some 3
  else if 0xF0 ≤ byte ∧ byte < 0xF8 then some 4
  else none

/-- Reads `count` further bytes of an escaped character. -/
def readTrailing? (value : Nat) : Nat → Cursor → Option (Nat × Cursor)
  | 0, cursor => some (value, cursor)
  | count + 1, cursor =>
    match cursor.rest with
    | '%' :: rest => do
      let byte ← hexNumber? 0 2 rest
      if 0x80 ≤ byte ∧ byte < 0xC0 then
        readTrailing? (value * 0x40 + (byte - 0x80)) count (cursor.advance 3)
      else none
    | _ => none

/-- Reads a character that is written as its escaped bytes. -/
def readEscapedBytes? (cursor : Cursor) : Option (Char × Cursor) := do
  let byte ← hexNumber? 0 2 (cursor.rest.drop 1)
  let length ← encodedLength? byte
  let lead := if length = 1 then byte else byte % Nat.pow 2 (7 - length)
  let (code, cursor) ← readTrailing? lead (length - 1) (cursor.advance 3)
  return (Char.ofNat code, cursor)

/-- Reads the characters of a tag. Every round reads a character. -/
def readTagText? (full : Bool) : Nat → String → Cursor → Option (String × Cursor)
  | 0, text, cursor => some (text, cursor)
  | rounds + 1, text, cursor =>
    match cursor.rest with
    | [] => some (text, cursor)
    | c :: _ =>
      if c == '%' then do
        let (character, cursor) ← readEscapedBytes? cursor
        readTagText? full rounds (text.push character) cursor
      else if isTagCharacter full c then readTagText? full rounds (text.push c) (cursor.advance 1)
      else some (text, cursor)

def tagText? (full : Bool) (cursor : Cursor) : Option (String × Cursor) :=
  readTagText? full cursor.rest.length "" cursor

/-- Reads the handle of a tag: `!`, or a word between two of them, or the beginning of a local
tag. -/
def readHandle? (cursor : Cursor) : Option (String × Cursor) :=
  match cursor.rest with
  | '!' :: rest =>
    let name := rest.takeWhile isWord
    let closed := rest.drop name.length |>.head? |>.any (· == '!')
    let handle := '!' :: name ++ (if closed then ['!'] else [])
    some (String.ofList handle, cursor.advance handle.length)
  | _ => none

/-- A tag behind its exclamation mark: the handle, empty where the tag is given in full, and the
rest. -/
def tag? (flow : Bool) (cursor : Cursor) : Option ((String × String) × Cursor) := do
  let (tag, cursor) ←
    match cursor.rest with
    | '!' :: '<' :: _ => do
      let (text, cursor) ← tagText? true (cursor.advance 2)
      if text.isEmpty || cursor.rest.head? != some '>' then none
      else some (("", text), cursor.advance 1)
    | _ => do
      let (handle, cursor) ← readHandle? cursor
      let (text, cursor) ← tagText? false cursor
      if handle.length ≥ 2 && handle.toList.getLast? == some '!' then
        if text.isEmpty then none else some ((handle, text), cursor)
      else
        let text := String.ofList (handle.toList.drop 1) ++ text
        some (if text.isEmpty then ("", "!") else ("!", text), cursor)
  if endsWord cursor.rest || (flow && cursor.rest.head? == some ',') then some (tag, cursor)
  else none

/-- A line in front of a document. -/
inductive Directive where
  | version (major minor : Nat)
  | tag (handle text : String)

/-- A version number has at most nine digits. -/
def versionNumber? (cursor : Cursor) : Option (Nat × Cursor) :=
  let digits := cursor.rest.takeWhile Char.isDigit
  if digits.isEmpty ∨ 9 < digits.length then none
  else some (digits.foldl (fun n c => 10 * n + (c.toNat - '0'.toNat)) 0, cursor.advance digits.length)

/-- The directive whose percent sign is here, with the end of its line. -/
def directive? (cursor : Cursor) : Option (Directive × Cursor) := do
  let cursor := cursor.advance 1
  let name := cursor.rest.takeWhile isWord
  let cursor := cursor.advance name.length
  if name.isEmpty || !endsWord cursor.rest then none
  else
    let cursor := cursor.skipWhile isBlank
    let (directive, cursor) ←
      if name = "YAML".toList then do
        let (major, cursor) ← versionNumber? cursor
        if cursor.rest.head? != some '.' then none
        else
          let (minor, cursor) ← versionNumber? (cursor.advance 1)
          some (Directive.version major minor, cursor)
      else if name = "TAG".toList then do
        let (handle, cursor) ← readHandle? cursor
        if handle != "!" && handle.toList.getLast? != some '!' then none
        else if !cursor.rest.head?.any isBlank then none
        else
          let (text, cursor) ← tagText? true (cursor.skipWhile isBlank)
          if text.isEmpty || !endsWord cursor.rest then none
          else some (Directive.tag handle text, cursor)
      else none
    return (directive, ← cursor.skipLineEnd?)

end SchemaInterfaces.Yaml
