import SchemaInterfaces.CommandLine.Arguments
import SchemaInterfaces.CommandLine.Outcome
import SchemaInterfaces.Drift
import SchemaInterfaces.Settings.Loading
import SchemaInterfaces.Settings.Saving

/-!
# Running the command line

A run loads the settings and puts the arguments over them. Then it saves them, or generates code
and prints it, compares it with the output file, or writes it there.
-/
namespace SchemaInterfaces.CommandLine

variable {m : Type → Type} [Monad m] [FileAccess m]

/-- Saves the settings. -/
def saveSettings (settings : Settings) (path : String) : m Outcome := do
  match ← settings.save path with
  | .error error => return .failed "" (.saving path error)
  | .ok () => return { stderr := "📝 Configuration written to " ++ path ++ "\n" }

/-- Generates code from the input file. -/
def generate (settings : Settings) : m (Except Failure Generated) := do
  match ← readDocument settings.inputPath with
  | .error error => return .error (.schema settings.inputPath error)
  | .ok document =>
    match settings.generation.result? document with
    | none => return .error (.missingRoot settings.generation)
    | some generated => return .ok generated

/-- What is told about an output file that differs. -/
def driftNotes (path : String) (drift : Drift) : String :=
  if drift.missing then "⚠️  " ++ path ++ " does not exist\n"
  else
    "⚠️  " ++ path ++ " is stale (-" ++ toString drift.removedCount ++ " +"
      ++ toString drift.addedCount ++ ")\n" ++ drift.diff

/-- Compares generated code with the output file. -/
def compareOutput (path code : String) : m Outcome := do
  match ← Drift.ofFile path code with
  | .error error => return .failed "" (.output error)
  | .ok drift =>
    if drift.agrees then return { stderr := "✅ " ++ path ++ " is up to date\n" }
    else return .failed (driftNotes path drift) (.drift path)

/-- Writes generated code to the output file. -/
def deliver (path : String) (generated : Generated) : m Outcome := do
  match ← writeGenerated path generated.code with
  | .error error => return .failed "" (.output error)
  | .ok count =>
    return {
      stderr := "📦 TypeScript declarations generated at '" ++ path ++ "'\n   "
        ++ toString generated.interfaceCount ++ " interfaces, "
        ++ toString generated.fieldCount ++ " fields, " ++ toString count ++ " bytes\n" }

/-- Does what the arguments ask for with the settings. -/
def perform (arguments : Arguments) (settings : Settings) : m Outcome := do
  match arguments.init with
  | some path => saveSettings settings path
  | none =>
    match ← generate settings with
    | .error failure => return .failed "" failure
    | .ok generated =>
      if arguments.stdout then return { stdout := generated.code }
      else if arguments.check then compareOutput settings.outputPath generated.code
      else deliver settings.outputPath generated

/-- Runs with arguments that are in order. -/
def run (surroundings : Surroundings) (arguments : Arguments) : m Outcome := do
  match ← loadSettings surroundings arguments.config with
  | .error error => return .failed "" (.settings error)
  | .ok settings => perform arguments (arguments.applyTo settings)

/-- Runs a command line. -/
def execute (surroundings : Surroundings) (arguments : List String) : m Outcome :=
  match Request.ofArguments? arguments with
  | none => return { code := misuseCode, stderr := "error: invalid arguments\n" }
  | some .help => return { stdout := helpText }
  | some (.run arguments) => run surroundings arguments

end SchemaInterfaces.CommandLine
