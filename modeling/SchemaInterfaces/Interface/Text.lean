import SchemaInterfaces.Interface.Basic
import SchemaInterfaces.Json.Quoted
import SchemaInterfaces.Text.Blank
import SchemaInterfaces.Text.Line

/-!
# The text of interfaces

Statements as TypeScript source, in the order given. Layout has three choices: the width of an
indentation step, whether interfaces are exported, and whether descriptions become comments.
-/
namespace SchemaInterfaces

/-- Layout of the generated text. -/
structure Layout where
  indent : Nat := 4
  exported : Bool := true
  docs : Bool := false
  deriving DecidableEq, Repr

/-- Characters that may begin an identifier. -/
def isIdentifierStart (c : Char) : Bool :=
  c.isAlpha || c == '_' || c == '$'

/-- Characters that may continue an identifier. -/
def isIdentifierPart (c : Char) : Bool :=
  isIdentifierStart c || c.isDigit

/-- A word that can be written without quotes. -/
def isIdentifier (word : List Char) : Bool :=
  match word with
  | [] => false
  | first :: rest => isIdentifierStart first && rest.all isIdentifierPart

/-- A field name as it is written: an identifier stands for itself, all else is quoted. -/
def keyText (name : String) : String :=
  if isIdentifier name.toList then name else Json.quoted name

/-- String literals with bars between them. -/
def unionText : List String → String
  | [] => "never"
  | [value] => Json.quoted value
  | value :: rest => Json.quoted value ++ " | " ++ unionText rest

/-- A type as it is written. -/
def FieldType.text : FieldType → String
  | .primitive .text => "string"
  | .primitive .number => "number"
  | .union values => unionText values
  | .array element => element.text ++ "[]"
  | .any => "any"
  | .label name => name
  | .opaqueObject => "object"
  | .named name => name

/-- The same text without the end mark of a comment. -/
def escapeCommentEnd : List Char → List Char
  | [] => []
  | [c] => [c]
  | c :: d :: rest =>
    if c = '*' ∧ d = '/' then '*' :: '\\' :: '/' :: escapeCommentEnd rest
    else c :: escapeCommentEnd (d :: rest)

/-- A line of a comment that runs over several lines. -/
def commentLine (indent line : String) : String :=
  if line.isEmpty then indent ++ " *\n" else indent ++ " * " ++ line ++ "\n"

/-- A description as a comment: on one line where it has at most one, else a line for each. -/
def docComment (indent description : String) : String :=
  let text := String.ofList (escapeCommentEnd description.toList)
  let lines := (Text.lines text).map Text.trimEnd
  if lines.length ≤ 1 then indent ++ "/** " ++ Text.trim text ++ " */\n"
  else
    indent ++ "/**\n" ++ String.join (lines.map (commentLine indent)) ++ indent ++ " */\n"

namespace Layout

/-- The comment in front of an item, where comments are asked for and there is a description. -/
def doc (layout : Layout) (indent : String) (description : Option String) : String :=
  match description with
  | some text => if layout.docs then docComment indent text else ""
  | none => ""

/-- A field on a line of its own. -/
def field (layout : Layout) (indent : String) (field : Field) : String :=
  layout.doc indent field.description ++
    indent ++ keyText field.name ++ ": " ++ field.type.text ++ ";\n"

/-- The indentation of the fields of an interface. -/
def fieldIndent (layout : Layout) : String :=
  String.ofList (List.replicate layout.indent ' ')

/-- An interface with its fields, one to a line. -/
def interface (layout : Layout) (declared : Interface) : String :=
  layout.doc "" declared.description ++
    (if layout.exported then "export " else "") ++ "interface " ++ declared.name ++ " \x7b\n" ++
    String.join (declared.fields.map (layout.field layout.fieldIndent)) ++ "\x7d\n"

/-- A statement; a field that stands alone is not indented. -/
def statement (layout : Layout) : Statement → String
  | .interface declared => layout.interface declared
  | .field item => layout.field "" item

/-- All statements one after the other. -/
def text (layout : Layout) (statements : List Statement) : String :=
  String.join (statements.map layout.statement)

end Layout

end SchemaInterfaces
