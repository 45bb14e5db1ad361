import SchemaInterfaces.Yaml.Cursor

/-!
# Block scalars

Indented text behind a header. A literal scalar keeps its line breaks; in a folded one a single
break between two lines that are not more indented becomes a space. The header may say how far the
text is indented and what happens to the line breaks at its end.
-/
namespace SchemaInterfaces.Yaml

/-- What happens to the line breaks at the end: all stay, one stays, or none. -/
inductive Chomping where
  | keep
  | clip
  | strip
  deriving DecidableEq

/-- The chomping that a sign asks for. -/
def chomping? (c : Char) : Option Chomping :=
  if c = '+' then some .keep else if c = '-' then some .strip else none

/-- The header behind its mark: chomping, an explicit indentation, and the number of characters.
Sign and digit may come in either order; a zero is an error. -/
def blockHeader? : List Char → Option (Chomping × Option Nat × Nat)
  | [] => some (.clip, none, 0)
  | c :: rest =>
    match chomping? c with
    | some chomping =>
      match rest with
      | d :: _ =>
        if d = '0' then none
        else if d.isDigit then some (chomping, some (d.toNat - '0'.toNat), 2)
        else some (chomping, none, 1)
      | [] => some (chomping, none, 1)
    | none =>
      if c = '0' then none
      else if c.isDigit then
        match rest.head?.bind chomping? with
        | some chomping => some (chomping, some (c.toNat - '0'.toNat), 2)
        | none => some (.clip, some (c.toNat - '0'.toNat), 1)
      else some (.clip, none, 0)

/-- Passes empty lines and the indentation of the next line, at most `indent` columns where that is
known. Gives the breaks and the widest indentation. A tab in the indentation is an error. -/
def readIndentation? (indent : Option Nat) :
    Nat → String → Nat → Cursor → Option (String × Nat × Cursor)
  | 0, breaks, widest, cursor => some (breaks, widest, cursor)
  | rounds + 1, breaks, widest, cursor =>
    let spaces := (cursor.rest.takeWhile (· == ' ')).length
    let spaces := match indent with
      | some indent => min spaces (indent - cursor.column)
      | none => spaces
    let cursor := cursor.advance spaces
    let widest := max widest cursor.column
    let indenting := match indent with
      | some indent => cursor.column < indent
      | none => true
    match cursor.rest with
    | [] => some (breaks, widest, cursor)
    | c :: _ =>
      if indenting && c == '\t' then none
      else if isBreak c then
        let (text, cursor) := cursor.readBreak
        readIndentation? indent rounds (breaks ++ text) widest cursor
      else some (breaks, widest, cursor)

/-- A block scalar as far as it was read: its text, the last line break and the empty lines behind
it, and whether its last line began with a blank. -/
structure BlockText where
  text : String := ""
  lastBreak : String := ""
  emptyLines : String := ""
  indented : Bool := false

/-- The text with the line breaks in front of a further line. -/
def BlockText.joined (block : BlockText) (folded lineIndented : Bool) : String :=
  if folded && block.lastBreak == "\n" && !block.indented && !lineIndented then
    block.text ++ (if block.emptyLines.isEmpty then " " else "") ++ block.emptyLines
  else block.text ++ block.lastBreak ++ block.emptyLines

/-- Reads the lines that are indented by exactly `indent` columns. Every round reads a line. -/
def readBlockLines? (folded : Bool) (indent : Nat) :
    Nat → BlockText → Cursor → Option (BlockText × Cursor)
  | 0, block, cursor => some (block, cursor)
  | rounds + 1, block, cursor =>
    if cursor.column ≠ indent ∨ cursor.rest.isEmpty then some (block, cursor)
    else
      let lineIndented := cursor.rest.head?.any isBlank
      let line := cursor.rest.takeWhile (!isBreak ·)
      let text := block.joined folded lineIndented ++ String.ofList line
      let (lastBreak, cursor) := (cursor.advance line.length).readBreak
      match readIndentation? (some indent) (cursor.rest.length + 1) "" 0 cursor with
      | none => none
      | some (emptyLines, _, cursor) =>
        readBlockLines? folded indent rounds ⟨text, lastBreak, emptyLines, lineIndented⟩ cursor

/-- The text of a block scalar with the line breaks that its chomping leaves. -/
def BlockText.chomped (block : BlockText) : Chomping → String
  | .strip => block.text
  | .clip => block.text ++ block.lastBreak
  | .keep => block.text ++ block.lastBreak ++ block.emptyLines

/-- The block scalar whose mark is here. The text is indented more than `parentIndent`, which is
below zero at the top. -/
def blockScalar? (folded : Bool) (parentIndent : Int) (cursor : Cursor) :
    Option (String × Cursor) := do
  let cursor := cursor.advance 1
  let (chomping, increment, length) ← blockHeader? cursor.rest
  let cursor ← (cursor.advance length).skipLineEnd?
  let indent := increment.map fun n => n + parentIndent.toNat
  let (emptyLines, widest, cursor) ←
    readIndentation? indent (cursor.rest.length + 1) "" 0 cursor
  let indent := indent.getD (max (max widest (parentIndent + 1).toNat) 1)
  let (block, cursor) ←
    readBlockLines? folded indent (cursor.rest.length + 1) { emptyLines } cursor
  return (block.chomped chomping, cursor)

end SchemaInterfaces.Yaml
