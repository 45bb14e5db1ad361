import SchemaInterfaces.Settings.Conversion
import SchemaInterfaces.Settings.Merging
import SchemaInterfaces.Settings.Source

/-!
# Loading settings

The sources of settings in their order: the files, and then the environment. A later source wins,
setting by setting. Every file that is there has to be well-formed, and the first one that is not is
the error.
-/
namespace SchemaInterfaces

/-- The files of settings in the working directory. -/
def commonFiles : List String := ["typegen.toml", ".typegen.toml", "config/typegen.toml"]

section

variable {m : Type → Type} [Monad m] [FileAccess m]

/-- The user's own settings, if there are any. -/
def readUserSettings (surroundings : Surroundings) :
    m (Except SettingsError (List (String × Setting))) := do
  match surroundings.userSettings with
  | none => return .ok []
  | some path =>
    if ← FileAccess.isPresent path then readOptional surroundings path else return .ok []

/-- The settings asked for by a path, if any. -/
def readExplicit (surroundings : Surroundings) :
    Option String → m (Except SettingsError (List (String × Setting)))
  | none => return .ok []
  | some path => readRequired surroundings path

/-- Puts what sources give over each other, up to the first error. The hashes are those of the
sources in their order. -/
def mergeSources (hashes : Nat → List String → String → Nat) (values : Setting) :
    List (m (Except SettingsError (List (String × Setting)))) → m (Except SettingsError Setting)
  | [] => return .ok values
  | source :: rest => do
    match ← source with
    | .error error => return .error error
    | .ok entries =>
      mergeSources (fun number => hashes (number + 1))
        (values.putSource (Setting.inOrder (hashes 0) entries)) rest

/-- Loads settings from all their sources. -/
def loadSettings (surroundings : Surroundings) (explicit : Option String) :
    m (Except SettingsError Settings) := do
  let sources := commonFiles.map (readOptional surroundings)
    ++ [readUserSettings surroundings, readExplicit surroundings explicit,
      return .ok (Variable.entries surroundings.assignments)]
  match ← mergeSources (fun number path => surroundings.hashes (.source number path))
      (.table none []) sources with
  | .error error => return .error error
  | .ok values => return Settings.ofValues (fun path => surroundings.hashes (.merged path)) values

end

end SchemaInterfaces
