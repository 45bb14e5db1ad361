import SchemaInterfaces.CommandLine.Run
import SchemaInterfaces.Proofs.Settings.Saving

/-!
# Which source a setting comes from

The arguments of a run give a layer as well, and it comes last. A run does its work with the
settings of all layers: each setting is what the last source gives that gives it, whatever any
source says about the others (`execute_of_layers`). What counts as the file of a source is decided
by names: an ending has to tell the format, and a missing file may be stood in for
(`exists_misnamed_source`).
-/
namespace SchemaInterfaces.CommandLine

/-- What the arguments of a run give for the settings. -/
def Arguments.layer (arguments : Arguments) : Layer where
  inputPath := arguments.input
  pointer := arguments.pointer
  rootKey := arguments.rootKey
  outputPath := arguments.output
  docs := if arguments.docs then some true else none

/-- Putting arguments over settings puts their layer over the layers of the settings. -/
theorem applyTo_settings (arguments : Arguments) (layers : List Layer) :
    arguments.applyTo (Layer.settings layers) = Layer.settings (layers ++ [arguments.layer]) := by
  have given {α : Type} (setting : Layer → Option α) :
      Layer.last? (layers ++ [arguments.layer]) setting =
        (setting arguments.layer).or (Layer.last? layers setting) :=
    Layer.last?_append layers arguments.layer setting
  have docs : (arguments.docs || (Layer.last? layers Layer.docs).getD false) =
      ((if arguments.docs then some true else none).or (Layer.last? layers Layer.docs)).getD
        false := by
    cases arguments.docs <;> rfl
  simp only [Layer.settings, given]
  simp only [Arguments.applyTo, Arguments.layer, Option.getD_or, Option.none_or, docs,
    Option.or_assoc, Option.orElse_eq_orElse, Option.orElse_eq_or]

/-- A run does its work with the settings that all its sources give, each setting by the last source
that gives it: the files at the usual places in their order, the file that is asked for, the
environment, and the arguments. -/
theorem execute_of_layers {surroundings : Surroundings} {given : List String}
    {arguments : Arguments} {tree : FileTree} {plain hidden nested user asked environment : Layer}
    (request : Request.ofArguments? given = some (.run arguments))
    (usual : tree.GivesUsual surroundings plain hidden nested user)
    (askedGives : tree.GivesExplicit surroundings arguments.config asked)
    (assigned : environment.IsAssigned surroundings.assignments) :
    (execute surroundings given : StateM FileTree _) tree =
      (perform arguments (Layer.settings
        [plain, hidden, nested, user, asked, environment, arguments.layer]) : StateM FileTree _)
        tree := by
  rw [execute, request]
  dsimp only
  rw [run, FileTree.run_bind, loadSettings_of_layers usual askedGives assigned]
  dsimp only
  rw [applyTo_settings]
  rfl

/-- A directory with settings in a file of each kind. -/
def layeredTree : FileTree where
  entries :=
    [(["typegen.toml"], .file (Layer.text { rootKey := some "a", indent := some 2 }).toUTF8),
      (["config"], .directory),
      (["config", "typegen.toml"], .file (Layer.text { indent := some 3 }).toUTF8),
      (["c.toml"], .file (Layer.text { rootKey := some "b", docs := some false }).toUTF8)]

/-- An environment that sets the path of the input. -/
def layeredSurroundings : Surroundings where
  assignments := [("HOME", "/root"), ("TYPEGEN__INPUT__PATH", "e.json")]

/-- Each setting comes from its own source: the root key from the file that is asked for, the
indent from the last of the usual files that gives one, the input from the environment, and the
pointer from the arguments. -/
theorem execute_of_layers_layered :
    (execute layeredSurroundings ["--config", "c.toml", "-p", "/x"] : StateM FileTree _)
        layeredTree =
      (perform { config := some "c.toml", pointer := some "/x" }
        { inputPath := "e.json", pointer := some "/x", rootKey := "b", indent := 3 } :
          StateM FileTree _) layeredTree := by
  have request : Request.ofArguments? ["--config", "c.toml", "-p", "/x"] =
      some (.run { config := some "c.toml", pointer := some "/x" }) := by
    decide +kernel
  have files : layeredTree.settingsFile? (fun _ => 0) "typegen.toml" =
        some ("typegen.toml", (Layer.text { rootKey := some "a", indent := some 2 }).toUTF8) ∧
      layeredTree.settingsFile? (fun _ => 0) ".typegen.toml" = none ∧
      layeredTree.settingsFile? (fun _ => 0) "config/typegen.toml" =
        some ("config/typegen.toml", (Layer.text { indent := some 3 }).toUTF8) ∧
      layeredTree.settingsFile? (fun _ => 0) "c.toml" =
        some ("c.toml", (Layer.text { rootKey := some "b", docs := some false }).toUTF8) := by
    decide +kernel
  obtain ⟨plainFile, hiddenFile, nestedFile, askedFile⟩ := files
  have plain : layeredTree.Gives layeredSurroundings "typegen.toml" _ :=
    Layer.gives_of_text (by decide) plainFile (by decide +kernel)
  have nested : layeredTree.Gives layeredSurroundings "config/typegen.toml" _ :=
    Layer.gives_of_text (by decide) nestedFile (by decide +kernel)
  have asked : layeredTree.Gives layeredSurroundings "c.toml" _ :=
    Layer.gives_of_text (by decide) askedFile (by decide +kernel)
  have assigned : Layer.IsAssigned { inputPath := some "e.json" }
      layeredSurroundings.assignments := by
    have home : Variable.key? "HOME" = none := by decide +kernel
    have path : Variable.key? "TYPEGEN__INPUT__PATH" = some (SectionName.pathOf .input "path") := by
      decide +kernel
    have value : Variable.value "e.json" = .text "e.json" := by decide +kernel
    refine ⟨fun assignment member key read => ?_, fun part name scalar given => ?_⟩
    · obtain rfl | rfl : assignment = ("HOME", "/root") ∨
          assignment = ("TYPEGEN__INPUT__PATH", "e.json") := by
        simpa [layeredSurroundings] using member
      · cases home.symm.trans read
      · cases path.symm.trans read
        exact .inr ⟨.input, "path", rfl, by rw [value]; rfl⟩
    · unfold Layer.value? at given
      split at given
      · exact ⟨("TYPEGEN__INPUT__PATH", "e.json"), by decide, path⟩
      all_goals cases given
  have same := execute_of_layers request ⟨plain, .absent hiddenFile, nested, .unknown rfl⟩
    (.present (by decide +kernel) asked) assigned
  exact same

/-- A directory with a document of settings under a name that tells no format. -/
def unnamedTree : FileTree where
  entries := [(["settings"], .file Settings.custom.text.toUTF8)]

/-- A directory with settings in a file whose name goes on after that of a usual one. -/
def strayTree : FileTree where
  entries := [(["typegen.toml.json"], .file "\x7b\"output\":\x7b\"indent\":2\x7d\x7d".toUTF8)]

/-- A valid document of settings is refused where its name does not tell the format, and a file that
stands beside a missing one is loaded in its place. -/
theorem exists_misnamed_source :
    unnamedTree.read "settings" = .ok Settings.custom.text.toUTF8 ∧
      (∃ entries, Toml.read? Settings.custom.text = some entries ∧
        Settings.custom.IsWritten entries) ∧
      ((loadSettings {} (some "settings") : StateM FileTree _) unnamedTree).1 =
        .error (.unknownFormat "/settings") ∧
      (∀ path ∈ commonFiles, (strayTree.find path).isOk = false) ∧
      ((loadSettings {} none : StateM FileTree _) strayTree).1 = .ok { indent := 2 } := by
  refine ⟨by rfl, ⟨_, Layer.read?_text (by decide), Layer.isWritten_entries (by decide)⟩,
    by decide +kernel, by decide +kernel, by decide +kernel⟩

end SchemaInterfaces.CommandLine
