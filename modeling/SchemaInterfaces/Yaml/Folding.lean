import SchemaInterfaces.Yaml.Cursor

/-!
# Line folding

Blanks and line breaks inside a scalar that runs over several lines. Blanks on one line stay. A
single line break becomes a space, and of several only the ones behind the first stay.
-/
namespace SchemaInterfaces.Yaml

/-- The blanks and breaks between two words of a scalar. -/
structure Gap where
  blanks : String := ""
  first : String := ""
  more : String := ""
  broken : Bool := false

namespace Gap

def isEmpty (gap : Gap) : Bool := !gap.broken && gap.blanks.isEmpty

/-- How a gap reads. -/
def fold (gap : Gap) : String :=
  if gap.broken then
    if gap.first == "\n" then (if gap.more.isEmpty then " " else gap.more)
    else gap.first ++ gap.more
  else gap.blanks

/-- Reads blanks and breaks. In a line that begins below `indent` columns, a tab there is an error.
Every round reads a character. -/
def read? (indent : Nat) : Nat → Gap → Cursor → Option (Gap × Cursor)
  | 0, gap, cursor => some (gap, cursor)
  | rounds + 1, gap, cursor =>
    match cursor.rest with
    | [] => some (gap, cursor)
    | c :: _ =>
      if isBlank c then
        if gap.broken then
          if cursor.column < indent ∧ c = '\t' then none
          else read? indent rounds gap (cursor.advance 1)
        else read? indent rounds { gap with blanks := gap.blanks.push c } (cursor.advance 1)
      else if isBreak c then
        let (text, cursor) := cursor.readBreak
        let gap :=
          if gap.broken then { gap with more := gap.more ++ text }
          else { gap with blanks := "", first := text, broken := true }
        read? indent rounds gap cursor
      else some (gap, cursor)

end Gap

end SchemaInterfaces.Yaml
