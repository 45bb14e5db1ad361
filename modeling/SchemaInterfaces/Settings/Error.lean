import SchemaInterfaces.Files.Error
import SchemaInterfaces.Number.Decimal
import SchemaInterfaces.Settings.KeyExpression
import SchemaInterfaces.Settings.Value
import SchemaInterfaces.Text.Shown

/-!
# Errors of settings

Why settings cannot be loaded, and the wording of each cause.
-/
namespace SchemaInterfaces

/-- What stands where something else is expected. -/
inductive Finding where
  | scalar (value : Scalar)
  | list
  | table
  deriving DecidableEq, Repr

/-- What a setting is expected to be. -/
inductive Expectation where
  | integer
  | natural
  | boolean
  | text
  deriving DecidableEq, Repr

/-- The three sections of settings. -/
inductive SectionName where
  | input
  | generate
  | output
  deriving DecidableEq, Repr

/-- Why settings cannot be loaded. -/
inductive SettingsError where
  /-- A setting has a value of the wrong kind. -/
  | wrongKind (found : Finding) (expected : Expectation) (part : SectionName) (step : KeyStep)
    (source : Option String)
  /-- A single value stands in the place of a section. -/
  | notSection (found : Scalar) (part : SectionName)
  /-- The file asked for is not there. -/
  | missingFile (path : String)
  /-- The file asked for is there, but its name does not tell a format. -/
  | unknownFormat (path : String)
  /-- The file asked for is there, but cannot be read. -/
  | unreadableFile (error : FileError)
  /-- A file breaks the rules of its format, or is no table. -/
  | malformedFile (complaint path : String)
  deriving DecidableEq, Repr

/-- The text of a real number, which always shows that it is no integer. -/
def Binary64.marked (value : Binary64) : String :=
  let text := value.positional
  if value.isFinite && !text.toList.contains '.' then text ++ ".0" else text

/-- A value in a message; integers are called by the given name. -/
def Scalar.message (integerName : String) : Scalar → String
  | .unset => "unit value"
  | .boolean value => "boolean \x60" ++ (if value then "true" else "false") ++ "\x60"
  | .integer n => integerName ++ " \x60" ++ toString n ++ "\x60"
  | .real value => "floating point \x60" ++ value.marked ++ "\x60"
  | .text value => "string " ++ Text.shown value

def Finding.message : Finding → String
  | .scalar value => value.message "64-bit integer"
  | .list => "sequence"
  | .table => "map"

def Expectation.message : Expectation → String
  | .integer => "an integer"
  | .natural => "an unsigned 64 bit or less integer"
  | .boolean => "a boolean"
  | .text => "a string"

/-- The key of a section. -/
def SectionName.key : SectionName → String
  | .input => "input"
  | .generate => "generate"
  | .output => "output"

/-- What a section is called in messages. -/
def SectionName.kind : SectionName → String
  | .input => "InputConfig"
  | .generate => "GenerateConfig"
  | .output => "OutputConfig"

/-- The key of a setting within a section, or of a place in a section written as a list. -/
def SectionName.keyOf (part : SectionName) : KeyStep → String
  | .key name => part.key ++ "." ++ name
  | .index position => part.key ++ "[" ++ toString position ++ "]"

def SettingsError.message : SettingsError → String
  | wrongKind found expected part step source =>
    "invalid type: " ++ found.message ++ ", expected " ++ expected.message
      ++ " for key \x60" ++ part.keyOf step ++ "\x60"
      ++ (match source with
        | some source => " in " ++ source
        | none => "")
  | notSection found part =>
    "invalid type: " ++ found.message "integer" ++ ", expected struct " ++ part.kind
  | missingFile path => "configuration file \"" ++ path ++ "\" not found"
  | unknownFormat path =>
    "configuration file \"" ++ path ++ "\" is not of a registered file format"
  | unreadableFile error => error.message
  | malformedFile complaint path => complaint ++ " in " ++ path

end SchemaInterfaces
