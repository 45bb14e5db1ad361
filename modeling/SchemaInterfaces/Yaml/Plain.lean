import SchemaInterfaces.Yaml.Folding

/-!
# Plain scalars

A scalar without quotes. It ends at a colon or number sign that stands alone, at a line that is not
indented, and inside a flow collection at the marks of the collection.
-/
namespace SchemaInterfaces.Yaml

/-- The marks of flow collections. -/
def isFlowMark (c : Char) : Bool :=
  c == ',' || c == '[' || c == ']' || c == '\x7b' || c == '\x7d'

/-- The number of characters up to the next gap or end. Inside a flow collection a colon in front
of a mark is an error. -/
def wordLength? (flow : Bool) : List Char → Option Nat
  | [] => some 0
  | c :: rest =>
    if isBlank c || isBreak c then some 0
    else if flow && c == ':' && rest.head?.any (fun d => isFlowMark d || d == '?') then none
    else if (c == ':' && endsWord rest) || (flow && isFlowMark c) then some 0
    else (wordLength? flow rest).map (· + 1)

/-- A plain scalar that was read; `broken` tells that it ended behind a line break. -/
structure PlainScalar where
  text : String
  broken : Bool
  cursor : Cursor

/-- Reads words and the gaps between them; `gap` is the gap in front. Every round reads a word. -/
def readPlain? (flow : Bool) (indent : Nat) :
    Nat → String → Gap → Cursor → Option PlainScalar
  | 0, text, gap, cursor => some ⟨text, gap.broken, cursor⟩
  | rounds + 1, text, gap, cursor =>
    if cursor.atDocumentMark || cursor.rest.head? == some '#' then
      some ⟨text, gap.broken, cursor⟩
    else
      match wordLength? flow cursor.rest with
      | none => none
      | some length =>
        let word := String.ofList (cursor.rest.take length)
        let text := if length = 0 then text else text ++ gap.fold ++ word
        let gap := if length = 0 then gap else {}
        let cursor := cursor.advance length
        match cursor.rest with
        | [] => some ⟨text, gap.broken, cursor⟩
        | c :: _ =>
          if isBlank c || isBreak c then
            match gap.read? indent cursor.rest.length cursor with
            | none => none
            | some (gap, cursor) =>
              if !flow && cursor.column < indent then some ⟨text, gap.broken, cursor⟩
              else readPlain? flow indent rounds text gap cursor
          else some ⟨text, gap.broken, cursor⟩

/-- The plain scalar that begins here. -/
def plainScalar? (flow : Bool) (indent : Nat) (cursor : Cursor) : Option PlainScalar :=
  readPlain? flow indent (cursor.rest.length + 1) "" {} cursor

end SchemaInterfaces.Yaml
