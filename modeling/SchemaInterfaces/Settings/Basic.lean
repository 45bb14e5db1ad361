import SchemaInterfaces.Files.Path
import SchemaInterfaces.Generation

/-!
# Settings

What a run of the program reads and writes and how. Every setting has a default.
-/
namespace SchemaInterfaces

/-- The eight settings of a run. -/
structure Settings where
  inputPath : String := "src/schema/meta/context.yaml"
  pointer : Option String := none
  rootKey : String := "context"
  banner : Bool := true
  outputPath : String := "tools/typescript/output/src/context.ts"
  indent : Nat := 4
  exported : Bool := true
  docs : Bool := false
  deriving DecidableEq, Repr

namespace Settings

/-- The banner names the input file, or the whole path where that names no file. -/
def bannerText (settings : Settings) : String :=
  let source := (Path.fileName? settings.inputPath).getD settings.inputPath
  "Generated from " ++ source ++ " - DO NOT EDIT"

/-- What the settings ask to generate. -/
def generation (settings : Settings) : Generation where
  rootKey := settings.rootKey
  pointer := settings.pointer
  banner := if settings.banner then some settings.bannerText else none
  layout := ⟨settings.indent, settings.exported, settings.docs⟩

end Settings

end SchemaInterfaces
