import SchemaInterfaces.Files.Access
import SchemaInterfaces.Json.Reader
import SchemaInterfaces.Settings.Error
import SchemaInterfaces.Settings.Visiting
import SchemaInterfaces.Settings.YamlScalar
import SchemaInterfaces.Text.Lossy
import SchemaInterfaces.Text.Lowercase
import SchemaInterfaces.Toml.Reader

/-!
# Sources of settings

Files in six formats, and the variables of the environment. A file may be named without its
extension. Three of the formats are read here; readers for the others come from outside.
-/
namespace SchemaInterfaces

/-- How a file of settings is written. -/
inductive SettingsFormat where
  | toml
  | json
  | yaml
  | ini
  | ron
  | json5
  deriving DecidableEq, Repr

namespace SettingsFormat

def name : SettingsFormat → String
  | toml => "toml"
  | json => "json"
  | yaml => "yaml"
  | ini => "ini"
  | ron => "ron"
  | json5 => "json5"

/-- The extensions of settings files with their formats. -/
def extensions : List (String × SettingsFormat) :=
  [("toml", toml), ("json", json), ("yaml", yaml), ("yml", yaml), ("ini", ini), ("ron", ron),
    ("json5", json5)]

/-- The extensions in the order in which they are tried: those of one format one after the other. -/
def extensionsByHash (hash : String → Nat) : List (String × SettingsFormat) :=
  (visited hash (extensions.map fun file => (file.2.name, file))).map Prod.snd

/-- The format of a file by its extension. -/
def ofPath? (path : String) : Option SettingsFormat :=
  (Path.extension? path).bind (List.lookup · extensions)

/-- Reads a text in a format; its topmost value has to be a table. -/
abbrev Reader := SettingsFormat → String → Option (List (String × Document))

/-- The entries of a text, which `others` reads where the format is none of the first three. -/
def entries? (others : Reader) (text : String) : SettingsFormat → Option (List (String × Document))
  | toml => Toml.read? text
  | json => (Json.read text).toOption.bind Document.mapping?
  | yaml => (Yaml.readSettings? text).bind Document.mapping?
  | format => others format text

end SettingsFormat

/-- What is known around a run apart from its arguments and files. -/
structure Surroundings where
  /-- The path of the user's own settings. -/
  userSettings : Option String := none
  /-- The variables of the environment in order. -/
  assignments : List (String × String) := []
  /-- The order in which this run goes through tables. -/
  hashes : Hashes := fun _ _ => 0
  /-- Readers for the formats that are not read here. -/
  readers : SettingsFormat.Reader := fun _ _ => none
  /-- What the reader of a format says about a text that it cannot read. -/
  complaint : SettingsFormat → String → String := fun _ _ => "malformed configuration"

/-- What a path names as a source of settings. -/
inductive SettingsFile where
  | missing
  | unknownFormat
  | found (path : String) (format : SettingsFormat)
  deriving DecidableEq, Repr

section

variable {m : Type → Type} [Monad m] [FileAccess m]

/-- The first file among some with their formats. -/
def firstFile : List (String × SettingsFormat) → m SettingsFile
  | [] => return .missing
  | (path, format) :: rest => do
    if ← FileAccess.isFile path then return .found path format else firstFile rest

/-- Looks for a file of settings: under the path itself, then under the path with an extension. -/
def findSettings (hash : String → Nat) (path : String) : m SettingsFile := do
  if ← FileAccess.isFile path then
    match SettingsFormat.ofPath? path with
    | some format => return .found path format
    | none => return .unknownFormat
  else if (Path.fileName? path).isNone then return .missing
  else
    firstFile ((SettingsFormat.extensionsByHash hash).map fun (extension, format) =>
      (Path.normal path ++ "." ++ extension, format))

/-- The entries of a file. -/
def readSettings (surroundings : Surroundings) (path : String) (format : SettingsFormat) :
    m (Except SettingsError (List (String × Setting))) := do
  match ← FileAccess.readBytes path with
  | .error error => return .error (.unreadableFile error)
  | .ok bytes =>
    let source := Path.relativeTo (← FileAccess.directory) path
    let text := Text.withoutMark (Text.ofBytesLossy bytes)
    match format.entries? surroundings.readers text with
    | some entries => return .ok (Setting.ofEntries source entries)
    | none => return .error (.malformedFile (surroundings.complaint format text) source)

/-- The entries of a file that need not be there. -/
def readOptional (surroundings : Surroundings) (path : String) :
    m (Except SettingsError (List (String × Setting))) := do
  match ← findSettings (surroundings.hashes .formats) path with
  | .found path format =>
    match ← readSettings surroundings path format with
    | .error (.unreadableFile _) => return .ok []
    | result => return result
  | _ => return .ok []

/-- The entries of a file that is asked for. -/
def readRequired (surroundings : Surroundings) (path : String) :
    m (Except SettingsError (List (String × Setting))) := do
  match ← findSettings (surroundings.hashes .formats) path with
  | .found path format => readSettings surroundings path format
  | .missing => return .error (.missingFile path)
  | .unknownFormat => return .error (.unknownFormat (Path.within (← FileAccess.directory) path))

end

namespace Variable

/-- How the names of variables begin, in small letters. -/
def opening : List Char := "typegen__".toList

/-- A name with dots for double underscores. -/
def dotted : List Char → List Char
  | '_' :: '_' :: rest => '.' :: dotted rest
  | c :: rest => c :: dotted rest
  | [] => []

/-- The key expression of a variable; only names with the right beginning have one. -/
def key? (name : String) : Option String :=
  let name := (Text.toLower name).toList
  if opening.isPrefixOf name then some (String.ofList (dotted (name.drop opening.length)))
  else none

/-- The value of a variable: a truth value or a number where its text reads as one. -/
def value (text : String) : Scalar :=
  let word := Text.toLower text
  if word = "true" then .boolean true
  else if word = "false" then .boolean false
  else
    match Digits.signed? 10 text.toList with
    | some n => .integer n
    | none =>
      match Binary64.ofText? text.toList with
      | some value => .real value
      | none => .text text

/-- What variables are called in messages. -/
def source : String := "the environment"

/-- The entries that variables give. Of several variables for one key the last one counts. -/
def entries (assignments : List (String × String)) : List (String × Setting) :=
  entriesOf <| assignments.filterMap fun (name, text) =>
    (key? name).map fun key => (key, .scalar (some source) (value text))

end Variable

end SchemaInterfaces
