import SchemaInterfaces.Generation
import SchemaInterfaces.SchemaFile
import SchemaInterfaces.Settings.Error

/-!
# Outcomes of a run

What a run prints and the code it ends with, and the wording of the errors that end it.
-/
namespace SchemaInterfaces.CommandLine

/-- What a run prints, and its exit code. -/
structure Outcome where
  code : Nat := 0
  stdout : String := ""
  stderr : String := ""
  deriving DecidableEq, Repr

/-- Why a run fails. -/
inductive Failure where
  | settings (error : SettingsError)
  | saving (path : String) (error : FileError)
  | schema (path : String) (error : SchemaError)
  | missingRoot (generation : Generation)
  | output (error : FileError)
  | drift (path : String)
  deriving DecidableEq, Repr

/-- The wording of a failure: what was being done, what went wrong, and its cause once more where
there is one. -/
def Failure.message : Failure → String
  | settings error =>
    "loading configuration: Configuration error: " ++ error.message ++ ": " ++ error.message
  | saving path error => "writing configuration to " ++ path ++ ": " ++ error.message
  | schema path error =>
    "loading schema " ++ path ++ ": " ++ error.message
      ++ (match error.cause? with
        | some cause => ": " ++ cause
        | none => "")
  | missingRoot generation => generation.missingRootMessage
  | output error => "IO error: " ++ error.message ++ ": " ++ error.message
  | drift path => "Generated output differs from " ++ path

/-- The exit code of a failed run. -/
def failureCode : Nat := 1

/-- The exit code where the arguments are not in order. -/
def misuseCode : Nat := 2

/-- A run that fails after some notes. -/
def Outcome.failed (notes : String) (failure : Failure) : Outcome where
  code := failureCode
  stderr := notes ++ "❌ Error: " ++ failure.message ++ "\n"

/-- The text that explains the arguments. -/
def helpText : String :=
  String.join ([
    "Generate TypeScript interfaces from a schema document",
    "",
    "Usage: schema-typegen [OPTIONS]",
    "",
    "Options:",
    "  -c, --config <CONFIG>      Config file layered over typegen.toml and the environment",
    "  -i, --input <INPUT>        Schema document (YAML or JSON)",
    "  -o, --output <OUTPUT>      Generated TypeScript file",
    "  -r, --root-key <ROOT_KEY>  Entry the document must define as an object",
    "  -p, --pointer <POINTER>    JSON pointer to the mapping holding the entries (e.g. /meta)",
    "      --docs                 Emit doc comments from schema descriptions",
    "      --stdout               Print to stdout instead of writing the output file",
    "      --check                Fail if the output file differs from freshly generated code",
    "      --init <INIT>          Write the effective configuration to this path and exit",
    "  -h, --help                 Print help"].map (· ++ "\n"))

end SchemaInterfaces.CommandLine
