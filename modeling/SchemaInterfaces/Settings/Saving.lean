import SchemaInterfaces.Files.Access
import SchemaInterfaces.Number.Digits
import SchemaInterfaces.Settings.Basic
import SchemaInterfaces.Toml.Quoted

/-!
# Saving settings

Settings as a TOML text that loads as the same settings.
-/
namespace SchemaInterfaces.Settings

/-- A line that sets a key. -/
def line (key value : String) : String := key ++ " = " ++ value ++ "\n"

def truthText (value : Bool) : String := if value then "true" else "false"

/-- The settings as a text; a pointer that is not set has no line. -/
def text (settings : Settings) : String :=
  "[input]\n"
    ++ line "path" (Toml.quoted settings.inputPath)
    ++ (match settings.pointer with
      | some pointer => line "pointer" (Toml.quoted pointer)
      | none => "")
    ++ "\n[generate]\n"
    ++ line "root_key" (Toml.quoted settings.rootKey)
    ++ line "banner" (truthText settings.banner)
    ++ "\n[output]\n"
    ++ line "path" (Toml.quoted settings.outputPath)
    ++ line "indent" (toString settings.indent)
    ++ line "export" (truthText settings.exported)
    ++ line "docs" (truthText settings.docs)

/-- Writes settings to a file. An indent that is too large for the text is refused before the file
is touched. -/
def save {m : Type → Type} [Monad m] [FileAccess m] (settings : Settings) (path : String) :
    m (Except FileError Unit) :=
  if Digits.maxSigned < settings.indent then return .error .outOfRange
  else FileAccess.writeText path settings.text

end SchemaInterfaces.Settings
