import SchemaInterfaces.CommandLine.Run

/-!
# The program

The command line over the files and the environment of the system.
-/
namespace SchemaInterfaces

/-- The number of a failed operation; some operations give it with a minus sign. -/
def errorNumber (code : UInt32) : Nat := min code.toNat (Nat.pow 2 32 - code.toNat)

/-- The cause of a failed operation. -/
def FileError.ofSystem : IO.Error → FileError
  | .noFileOrDirectory .. => .notFound
  | .alreadyExists .. => .alreadyExists
  | .inappropriateType _ code details =>
    if errorNumber code = 20 then .notDirectory
    else if errorNumber code = 21 then .isDirectory
    else .other details
  | .invalidArgument _ code details =>
    if errorNumber code = 36 then .nameTooLong else .other details
  | error => .other (toString error)

/-- The result of an operation of the system. -/
def attempt {α : Type} (action : IO α) : IO (Except FileError α) := do
  match ← action.toBaseIO with
  | .ok value => return .ok value
  | .error error => return .error (.ofSystem error)

/-- The system offers access to its files. -/
instance : FileAccess IO where
  directory := do return (← IO.currentDir).toString
  readBytes path := attempt (IO.FS.readBinFile path)
  writeBytes path content := attempt (IO.FS.writeBinFile path content)
  isPresent path := do ((← IO.currentDir) / path).pathExists
  isFile path := do
    match ← ((← IO.currentDir) / path).metadata.toBaseIO with
    | .ok metadata => return metadata.type == .file
    | .error _ => return false
  makeDirectories path := attempt (IO.FS.createDirAll path)

/-- The texts between the zero bytes of a list of variables. -/
def splitVariables (text : List Char) : List String :=
  (text.splitOn '\x00').map String.ofList

/-- A variable with its value. -/
def binding? (text : String) : Option (String × String) :=
  let name := text.toList.takeWhile (· ≠ '=')
  if name.isEmpty then none
  else some (String.ofList name, String.ofList (text.toList.drop (name.length + 1)))

/-- The variables of the environment. -/
def readVariables : IO (List (String × String)) := do
  match ← (IO.FS.readBinFile "/proc/self/environ").toBaseIO with
  | .ok bytes => return (splitVariables (Text.ofBytesLossy bytes).toList).filterMap binding?
  | .error _ => return []

/-- The directory of the user's own settings. -/
def settingsDirectory? : IO (Option String) := do
  match ← IO.getEnv "XDG_CONFIG_HOME", ← IO.getEnv "HOME" with
  | some directory, home =>
    if Path.isAbsolute directory then return some directory
    else return home.map (· ++ "/.config")
  | none, home => return home.map (· ++ "/.config")

/-- What is known around this run. -/
def readSurroundings : IO Surroundings := do
  return {
    userSettings := (← settingsDirectory?).map (· ++ "/schema-typegen/typegen.toml")
    assignments := ← readVariables }

end SchemaInterfaces

open SchemaInterfaces in
/-- Runs the command line and prints its outcome. -/
def main (arguments : List String) : IO UInt32 := do
  let outcome ← CommandLine.execute (m := IO) (← readSurroundings) arguments
  IO.print outcome.stdout
  IO.eprint outcome.stderr
  return UInt32.ofNat outcome.code
