import SchemaInterfaces.Files.Access
import SchemaInterfaces.Json.Reader
import SchemaInterfaces.Yaml.Reader

/-!
# Schema files

A schema document is a JSON or a YAML text. The extension of a file decides which of the two it is
read as.
-/
namespace SchemaInterfaces

/-- How a document is written. -/
inductive Format where
  | yaml
  | json
  deriving DecidableEq, Repr

/-- The format of a file by its extension, which is told by its exact case. -/
def Format.ofPath? (path : String) : Option Format :=
  match Path.extension? path with
  | some "yaml" => some .yaml
  | some "yml" => some .yaml
  | some "json" => some .json
  | _ => none

/-- Why a schema file has no document. -/
inductive SchemaError where
  | unsupportedFormat (path : String)
  | file (error : FileError)
  | json (fault : Json.Fault)
  | yaml
  deriving DecidableEq, Repr

/-- What a fault in a file or a text is called; there is none where the format is not known. -/
def SchemaError.cause? : SchemaError → Option String
  | unsupportedFormat _ => none
  | file error => some error.message
  | json fault => some fault.message
  | yaml => some "malformed document"

/-- The wording of an error. -/
def SchemaError.message : SchemaError → String
  | unsupportedFormat path => "Unsupported schema document format: " ++ path
  | file error => "IO error: " ++ error.message
  | json fault => "JSON error: " ++ fault.message
  | yaml => "YAML error: malformed document"

/-- The document of a text in a format. -/
def Format.read (text : String) : Format → Except SchemaError Document
  | .json => (Json.read text).mapError .json
  | .yaml =>
    match Yaml.read? text with
    | some document => .ok document
    | none => .error .yaml

/-- The document of a file. The extension is looked at before the file. -/
def readDocument {m : Type → Type} [Monad m] [FileAccess m] (path : String) :
    m (Except SchemaError Document) := do
  match Format.ofPath? path with
  | none => return .error (.unsupportedFormat path)
  | some format =>
    match ← FileAccess.readText path with
    | .error error => return .error (.file error)
    | .ok text => return format.read text

end SchemaInterfaces
