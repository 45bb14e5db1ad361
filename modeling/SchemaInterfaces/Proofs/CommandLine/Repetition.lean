import SchemaInterfaces.Proofs.CommandLine.Modes
import SchemaInterfaces.Proofs.Settings.Lookups
import SchemaInterfaces.Proofs.Writing

/-!
# Checking and repeating what was written

A run that has written its output can be checked, and repeated without a change, by a run that would
have loaded the same settings and looks for none of its files at the place of the output
(`execute_again`). A switch for checking counts only in front of a separator, and the directories
that are made for the output must not be what decides whether the user has settings
(`exists_run_not_repeatable`).
-/
namespace SchemaInterfaces

namespace CommandLine

open FileTree (IsWritten)

/-! ### Checking in place of writing -/

theorem Word.ofLong_ne_separator (name : String) (value : Option String) :
    Word.ofLong name value ≠ .separator := by
  unfold Word.ofLong
  split
  · nofun
  · nofun
  · split <;> nofun
  · nofun

theorem Word.ofShort_ne_separator (letter : Char) (rest : List Char) :
    Word.ofShort letter rest ≠ .separator := by
  unfold Word.ofShort
  split
  · nofun
  · split
    · nofun
    · split <;> nofun

/-- Only two hyphens by themselves end the switches and options. -/
theorem Word.ofArgument_eq_separator {argument : String}
    (separates : Word.ofArgument argument = .separator) : argument = "--" := by
  unfold Word.ofArgument at separates
  split at separates
  next characters => exact String.toList_injective characters
  next => exact absurd separates (Word.ofLong_ne_separator _ _)
  next => exact absurd separates (Word.ofShort_ne_separator _ _)
  next => cases separates

namespace Request

variable {arguments : Arguments} {rest : List String} {request : Request}

/-- What is asked for is writing the output file; with the switch for checking behind the arguments
it is checking, if no separator stands in between. -/
def AsksForWriting (arguments : Arguments) (rest : List String) (request : Request) : Prop :=
  ∃ settled : Arguments, settled.Writes ∧ request = .run settled ∧
    ("--" ∉ rest →
      read? arguments (rest ++ ["--check"]) = some (.run { settled with check := true }))

/-- Arguments that are read in one step leave it to the rest what is asked for. -/
theorem AsksForWriting.of_step {given? : Option Arguments} (here : List String)
    (step : ∀ tail, read? arguments (here ++ tail) = given?.bind (read? · tail))
    (reads : given?.bind (read? · rest) = some request)
    (further : ∀ given ∈ given?, read? given rest = some request →
      AsksForWriting given rest request) :
    AsksForWriting arguments (here ++ rest) request := by
  obtain ⟨given, isGiven, reads⟩ := Option.bind_eq_some_iff.mp reads
  obtain ⟨settled, writes, same, checks⟩ := further given isGiven reads
  refine ⟨settled, writes, same, fun free => ?_⟩
  rw [List.append_assoc, step, isGiven]
  exact checks fun member => free (List.mem_append_right _ member)

theorem finished?_of_writes (writes : arguments.Writes) :
    finished? arguments = some (.run arguments) := by
  rw [finished?, Arguments.isConsistent, writes.stdout]
  rfl

theorem read?_check (writes : arguments.Writes) :
    read? arguments ["--check"] = some (.run { arguments with check := true }) := by
  have checking : Word.ofArgument "--check" = .turnOn .check := by rfl
  simp [read?, checking, Arguments.turnOn?, finished?, Arguments.isConsistent, writes.stdout,
    writes.check]

/-- Arguments that choose no mode ask for writing, whatever was given before. -/
theorem asksForWriting_of_writes (writes : arguments.Writes)
    (noMode : ∀ argument ∈ rest, (Word.ofArgument argument).choosesMode = false)
    (reads : read? arguments rest = some request) : AsksForWriting arguments rest request := by
  fun_induction read? arguments rest with
  | case1 arguments =>
    cases (finished?_of_writes writes).symm.trans reads
    exact ⟨arguments, writes, rfl, fun _ => read?_check writes⟩
  | case2 arguments argument rest separates =>
    cases (finished?_of_writes writes).symm.trans reads
    refine ⟨arguments, writes, rfl, fun free => ?_⟩
    exact absurd (Word.ofArgument_eq_separator separates ▸ List.mem_cons_self) free
  | case3 => cases reads
  | case4 arguments argument rest helps =>
    have own := (List.forall_mem_cons.mp noMode).1
    rw [helps] at own
    cases own
  | case5 arguments argument rest switch turnsOn ih =>
    obtain ⟨own, noMode⟩ := List.forall_mem_cons.mp noMode
    refine .of_step [argument] (fun tail => by simp [read?, turnsOn]) reads
      fun given turned further => ?_
    cases switch with
    | docs => exact ih given (writes.turnOn_docs turned) noMode further
    | stdout | check => rw [turnsOn] at own; cases own
  | case6 arguments argument rest option value gives ih =>
    obtain ⟨own, noMode⟩ := List.forall_mem_cons.mp noMode
    refine .of_step [argument] (fun tail => by simp [read?, gives]) reads
      fun given hasValue further => ?_
    exact ih given (writes.give? hasValue (Word.ne_init own gives)) noMode further
  | case7 => cases reads
  | case8 arguments argument option gives value rest isValue ih =>
    obtain ⟨own, noMode⟩ := List.forall_mem_cons.mp noMode
    refine .of_step [argument, value] (fun tail => by simp [read?, gives, isValue]) reads
      fun given hasValue further => ?_
    exact ih given (writes.give? hasValue (Word.ne_init own gives))
      (List.forall_mem_cons.mp noMode).2 further
  | case9 => cases reads
  | case10 => cases reads

end Request

/-! ### Preparing again -/

section

variable {surroundings : Surroundings} {arguments : Arguments} {tree written : FileTree}
  {place : Place} {settings : Settings} {generated : Generated}

/-- Code is generated from a file with a known format, a document and the root of it. -/
theorem generate_eq_ok_iff :
    ((generate settings : StateM FileTree _) tree).1 = .ok generated ↔
      ∃ format text document, Format.ofPath? settings.inputPath = some format ∧
        tree.read settings.inputPath = .ok text.toUTF8 ∧ format.read text = .ok document ∧
        settings.generation.result? document = some generated := by
  simp only [← FileTree.text_eq_ok]
  rw [generate, FileTree.run_bind, readDocument]
  cases Format.ofPath? settings.inputPath with
  | none => simp [FileTree.run_pure]
  | some format =>
    simp only [FileTree.run_bind, FileTree.readText_run]
    cases tree.text settings.inputPath with
    | error error => simp [FileTree.run_pure]
    | ok text =>
      cases read : format.read text with
      | error error => simp [FileTree.run_pure, read]
      | ok document =>
        cases result : settings.generation.result? document <;>
          simp [FileTree.run_pure, read, result]

theorem prepared_eq_ok_iff :
    (prepared surroundings arguments tree).1 = .ok (settings, generated) ↔
      ∃ loaded, ((loadSettings surroundings arguments.config : StateM FileTree _) tree).1 =
          .ok loaded ∧ arguments.applyTo loaded = settings ∧
        ((generate settings : StateM FileTree _) tree).1 = .ok generated := by
  obtain ⟨loaded, load⟩ := (onlyReads_loadSettings surroundings arguments.config).run tree
  rw [prepared, FileTree.run_bind, load]
  cases loaded with
  | error error => simp [FileTree.run_pure]
  | ok loaded =>
    obtain ⟨produced, produce⟩ := (onlyReads_generate (arguments.applyTo loaded)).run tree
    simp only [FileTree.run_bind, produce]
    constructor
    · intro prepares
      cases produced with
      | error failure => cases prepares
      | ok result =>
        cases prepares
        exact ⟨loaded, rfl, rfl, by rw [produce]⟩
    · rintro ⟨_, same, rfl, generates⟩
      cases same
      rw [produce] at generates
      cases generates
      rfl

/-- The output file of a run is none of the files that the run looks at, and where writing it brings
something to the path of the user's settings, there are still none. -/
structure IsApart (surroundings : Surroundings) (arguments : Arguments) (settings : Settings)
    (tree written : FileTree) : Prop where
  input : ¬ written.SamePlace settings.outputPath settings.inputPath
  sources : ∀ path ∈ lookups surroundings arguments.config tree,
    ¬ written.SamePlace settings.outputPath path
  user : ∀ path ∈ surroundings.userSettings, (written.find path).isOk = true →
    (tree.find path).isOk = true ∨ written.settingsFile? (surroundings.hashes .formats) path = none

theorem exists_extension_of_ofPath? {path : String} {format : Format}
    (known : Format.ofPath? path = some format) :
    ∃ extension, Path.extension? path = some extension := by
  unfold Format.ofPath? at known
  split at known <;> first | exact ⟨_, ‹_›⟩ | cases known

/-- What was prepared for a write is prepared again after it. -/
theorem prepared_of_isWritten (wrote : IsWritten tree written place)
    (held : written.node? place ≠ none)
    (leads : written.resolve settings.outputPath = .ok place) (wellFormed : tree.IsWellFormed)
    (apart : IsApart surroundings arguments settings tree written)
    (prepares : (prepared surroundings arguments tree).1 = .ok (settings, generated)) :
    (prepared surroundings arguments written).1 = .ok (settings, generated) := by
  obtain ⟨loaded, loads, settles, generates⟩ := prepared_eq_ok_iff.mp prepares
  obtain ⟨format, text, document, known, held', parsed, result⟩ := generate_eq_ok_iff.mp generates
  refine prepared_eq_ok_iff.mpr ⟨loaded, ?_, settles, generate_eq_ok_iff.mpr
    ⟨format, text, document, known, ?_, parsed, result⟩⟩
  · exact loadSettings_of_isWritten wrote held wellFormed apart.user
      (fun path member same => apart.sources path member ⟨place, leads, same⟩) loads
  · obtain ⟨place', resolved, file⟩ := FileTree.read_eq_ok_iff.mp held'
    obtain ⟨dir, enters⟩ := FileTree.exists_enter?_of_resolve resolved
    obtain ⟨extension, named⟩ := exists_extension_of_ofPath? known
    have regular : tree.resolve settings.inputPath ≠ .ok FileTree.nullDevice := fun null => by
      cases resolved.symm.trans null
      exact FileTree.ne_nullDevice_of_extension? named null (by simp [file]) rfl
    have same := FileTree.file?_of_entered wrote enters
      fun leads' => apart.input ⟨place, leads, leads'⟩
    rw [FileTree.file?_eq_some_iff_read.mpr ⟨held', regular⟩] at same
    exact (FileTree.file?_eq_some_iff_read.mp same).1

end

/-! ### Running again -/

section

variable {surroundings : Surroundings} {arguments : Arguments} {tree : FileTree} {place : Place}
  {settings : Settings} {generated : Generated}

theorem run_of_prepared (writes : arguments.Writes)
    (prepares : (prepared surroundings arguments tree).1 = .ok (settings, generated)) :
    (run surroundings arguments : StateM FileTree _) tree =
      (deliver settings.outputPath generated : StateM FileTree _) tree := by
  rw [run_eq writes.init, prepares, conclude_writing settings generated writes]

theorem run_check_of_prepared (writes : arguments.Writes)
    (prepares : (prepared surroundings arguments tree).1 = .ok (settings, generated)) :
    (run surroundings { arguments with check := true } : StateM FileTree _) tree =
      (compareOutput settings.outputPath generated.code : StateM FileTree _) tree := by
  have same : prepared surroundings { arguments with check := true } =
      prepared surroundings arguments := rfl
  have generates : { arguments with check := true }.init = none := writes.init
  rw [run_eq generates, same, prepares, conclude_checking settings generated writes]

/-- A run that succeeds has prepared code and written it. -/
theorem exists_writeGenerated_of_run (writes : arguments.Writes)
    (succeeds : ((run surroundings arguments : StateM FileTree _) tree).1.code = 0) :
    ∃ settings generated count,
      (prepared surroundings arguments tree).1 = .ok (settings, generated) ∧
      (writeGenerated settings.outputPath generated.code : StateM FileTree _) tree =
        (.ok count, ((run surroundings arguments : StateM FileTree _) tree).2) := by
  cases prepares : (prepared surroundings arguments tree).1 with
  | error failure =>
    rw [run_eq writes.init, prepares] at succeeds
    cases succeeds
  | ok result =>
    obtain ⟨settings, generated⟩ := result
    rw [run_of_prepared writes prepares, deliver_run] at succeeds ⊢
    cases wrote : ((writeGenerated settings.outputPath generated.code :
      StateM FileTree _) tree).1 with
    | error error =>
      rw [wrote] at succeeds
      cases succeeds
    | ok count => exact ⟨settings, generated, count, rfl, Prod.ext wrote rfl⟩

variable (writes : arguments.Writes)
  (prepares : (prepared surroundings arguments tree).1 = .ok (settings, generated))
  (leads : tree.resolve settings.outputPath = .ok place)

include writes prepares leads

/-- A run that finds its output in place, or that writes to the null device once more, leaves all as
it is. -/
theorem run_again (file : tree.node? place ≠ some .directory)
    (held : place ≠ FileTree.nullDevice →
      tree.node? place = some (.file generated.code.toUTF8)) :
    ((run surroundings arguments : StateM FileTree _) tree).1.code = 0 ∧
      ((run surroundings arguments : StateM FileTree _) tree).2 = tree := by
  rw [run_of_prepared writes prepares, deliver_run, writeGenerated_again leads file held]
  exact ⟨rfl, rfl⟩

/-- A check of output that is in place succeeds. -/
theorem run_check_again (held : tree.node? place = some (.file generated.code.toUTF8)) :
    ((run surroundings { arguments with check := true } : StateM FileTree _) tree).1.code = 0 ∧
      ((run surroundings { arguments with check := true } : StateM FileTree _) tree).2 = tree := by
  rw [run_check_of_prepared writes prepares]
  refine ⟨(code_compareOutput _ _ _).mpr ?_, by rw [compareOutput_run]⟩
  exact FileTree.read_eq_ok_iff.mpr ⟨place, leads, held⟩

end

/-- The same arguments leave every file and directory as it is, and the check finds the output up to
date, unless that is the null device. -/
def IsRepeated (surroundings : Surroundings) (given : List String) (output : String)
    (tree : FileTree) : Prop :=
  let checked := (execute surroundings (given ++ ["--check"]) : StateM FileTree _) tree
  let again := (execute surroundings given : StateM FileTree _) tree
  ("--" ∉ given → tree.resolve output ≠ .ok FileTree.nullDevice →
    checked.1.code = 0 ∧ checked.2 = tree) ∧
  again.1.code = 0 ∧ again.2 = tree

/-- A run that has written its output file can be checked and repeated by a run that would have
loaded the same settings, though it goes through tables in its own order, and that looks for none of
its files at the place of the output. Without ambiguity in the sources every run would have loaded
the same settings. -/
theorem execute_again (surroundings : Surroundings) (given : List String) (tree : FileTree)
    (wellFormed : tree.IsWellFormed)
    (noMode : ∀ argument ∈ given, (Word.ofArgument argument).choosesMode = false)
    (succeeds : ((execute surroundings given : StateM FileTree _) tree).1.code = 0) :
    let written := ((execute surroundings given : StateM FileTree _) tree).2
    ∃ arguments loaded, Request.ofArguments? given = some (.run arguments) ∧
      ((loadSettings surroundings arguments.config : StateM FileTree _) tree).1 = .ok loaded ∧
      (∀ order : Hashes,
        let later : Surroundings := { surroundings with hashes := order }
        ((loadSettings later arguments.config : StateM FileTree _) tree).1 = .ok loaded →
        IsApart later arguments (arguments.applyTo loaded) tree written →
          IsRepeated later given (arguments.applyTo loaded).outputPath written) ∧
      (IsUnambiguous surroundings arguments.config tree → ∀ order : Hashes,
        ((loadSettings { surroundings with hashes := order } arguments.config :
          StateM FileTree _) tree).1 = .ok loaded) := by
  obtain ⟨request, asks⟩ : ∃ request, Request.ofArguments? given = some request := by
    cases asks : Request.ofArguments? given with
    | none =>
      rw [execute, asks] at succeeds
      cases succeeds
    | some request => exact ⟨request, rfl⟩
  obtain ⟨arguments, writes, rfl, checks⟩ :=
    Request.asksForWriting_of_writes ⟨rfl, rfl, rfl⟩ noMode asks
  have runs (around : Surroundings) :
      (execute around given : StateM FileTree _) = run around arguments := by
    rw [execute, asks]
  simp only [IsRepeated, runs] at succeeds ⊢
  obtain ⟨settings, generated, count, prepares, wrote⟩ :=
    exists_writeGenerated_of_run writes succeeds
  obtain ⟨loaded, loads, rfl, _⟩ := prepared_eq_ok_iff.mp prepares
  refine ⟨arguments, loaded, asks, loads, fun order loads' apart => ?_, fun unambiguous order => ?_⟩
  · obtain ⟨place, leads, held, ⟨content, file⟩, wrote⟩ := isWritten_of_writeGenerated wrote
    -- Preparing knows the surroundings by the settings that are loaded, which are the same.
    have prepares' : (prepared { surroundings with hashes := order } arguments tree).1 =
        .ok (arguments.applyTo loaded, generated) := by
      rw [prepared_run, loads', ← loads, ← prepared_run, prepares]
    have again := prepared_of_isWritten wrote (by simp [file]) leads wellFormed apart prepares'
    refine ⟨fun free regular => ?_, run_again writes again leads (by simp [file]) held⟩
    have checked : (execute { surroundings with hashes := order } (given ++ ["--check"]) :
        StateM FileTree _) =
          run { surroundings with hashes := order } { arguments with check := true } := by
      rw [execute, Request.ofArguments?, checks free]
    rw [checked]
    exact run_check_again writes again leads (held (by rintro rfl; exact regular leads))
  · exact (toOption_eq_iff.mp
      (loadSettings_toOption_of_isUnambiguous unambiguous order) loaded).mpr loads

/-- A directory with a schema and settings for its root. -/
def rootedTree : FileTree where
  entries :=
    [(["s.json"], .file "\x7b\"a\":\x7b\"type\":\"object\"\x7d\x7d".toUTF8),
      (["typegen.toml.json"], .file "\x7b\"generate\":\x7b\"root_key\":\"a\"\x7d\x7d".toUTF8)]

/-- The user's settings would lie in the directory of the output, which is not there yet. -/
def rootedSurroundings : Surroundings := { userSettings := some "gen/typegen.toml" }

def rootedArguments : Arguments := { input := some "s.json", output := some "gen/ts/out.ts" }

/-- Directories are made for the output, and the user is still without settings. -/
theorem execute_again_rooted :
    let given := ["-i", "s.json", "-o", "gen/ts/out.ts"]
    let written := ((execute rootedSurroundings given : StateM FileTree _) rootedTree).2
    let later := { rootedSurroundings with hashes := byLength }
    ((execute rootedSurroundings given : StateM FileTree _) rootedTree).1.code = 0 ∧
      ((execute later (given ++ ["--check"]) : StateM FileTree _) written).1.code = 0 ∧
      ((execute later given : StateM FileTree _) written).2 = written := by
  have wellFormed : rootedTree.IsWellFormed :=
    FileTree.isWellFormed_of_entries (List.forall_mem_cons.mpr ⟨rfl, List.forall_mem_cons.mpr
      ⟨rfl, by simp⟩⟩)
  have facts :
      let written := ((execute rootedSurroundings ["-i", "s.json", "-o", "gen/ts/out.ts"] :
        StateM FileTree _) rootedTree).2
      ((execute rootedSurroundings ["-i", "s.json", "-o", "gen/ts/out.ts"] :
          StateM FileTree _) rootedTree).1.code = 0 ∧
        Request.ofArguments? ["-i", "s.json", "-o", "gen/ts/out.ts"] =
          some (.run rootedArguments) ∧
        ((loadSettings rootedSurroundings none : StateM FileTree _) rootedTree).1 =
          .ok { rootKey := "a" } ∧
        ((loadSettings { rootedSurroundings with hashes := byLength } none :
          StateM FileTree _) rootedTree).1 = .ok { rootKey := "a" } ∧
        ¬ written.SamePlace "gen/ts/out.ts" "s.json" ∧
        (∀ path ∈ lookups { rootedSurroundings with hashes := byLength } none rootedTree,
          ¬ written.SamePlace "gen/ts/out.ts" path) ∧
        (written.find "gen/typegen.toml").isOk = false ∧
        written.resolve "gen/ts/out.ts" ≠ .ok FileTree.nullDevice := by
    decide +kernel
  obtain ⟨succeeds, asks, loads, loads', input, sources, nothing, regular⟩ := facts
  obtain ⟨arguments, loaded, request, first, again, _⟩ :=
    execute_again rootedSurroundings _ rootedTree wellFormed (by decide) succeeds
  cases asks.symm.trans request
  cases loads.symm.trans first
  obtain ⟨checks, _, same⟩ := again byLength loads'
    { input := input
      sources := sources
      user := by
        rintro _ ⟨rfl⟩ there
        rw [nothing] at there
        cases there }
  exact ⟨succeeds, (checks (by decide) regular).1, same⟩

/-- A directory with a schema and, beside the path of the user's settings, settings for another
root. -/
def besideTree : FileTree where
  entries :=
    [(["s.json"], .file "\x7b\"context\":\x7b\"type\":\"object\"\x7d\x7d".toUTF8),
      (["xdg"], .directory),
      (["xdg", "schema-typegen"], .directory),
      (["xdg", "schema-typegen", "typegen.toml.json"],
        .file "\x7b\"generate\":\x7b\"root_key\":\"other\"\x7d\x7d".toUTF8)]

def besideSurroundings : Surroundings := { userSettings := some "xdg/schema-typegen/typegen.toml" }

/-- The output lies in a directory that gets the name of the user's settings. -/
def besideArguments : List String :=
  ["-i", "s.json", "-o", "xdg/schema-typegen/typegen.toml/out.ts"]

/-- The directory that is made for an output file can bring settings into play that did not count
before, behind a separator there is no check, the null device keeps no output, and of two variables
that exclude each other the later one in the order of the run counts. -/
theorem exists_run_not_repeatable :
    let written := ((execute besideSurroundings besideArguments : StateM FileTree _) besideTree).2
    let discarded := ((execute {} discarding : StateM FileTree _) schemaTree).2
    let disputed := execute { disputedSurroundings with hashes := byLength } ["-i", "s.json"]
    ((∀ argument ∈ besideArguments ++ ["--"], (Word.ofArgument argument).choosesMode = false) ∧
      ((execute besideSurroundings besideArguments : StateM FileTree _) besideTree).1.code = 0 ∧
      (∀ asked ∈ commonFiles ++ besideSurroundings.userSettings.toList,
        ∀ path ∈ "s.json" :: settingsPaths (besideSurroundings.hashes .formats) asked,
          ¬ written.SamePlace "xdg/schema-typegen/typegen.toml/out.ts" path) ∧
      ((execute besideSurroundings (besideArguments ++ ["--check"]) : StateM FileTree _)
        written).1.code = failureCode ∧
      ((execute besideSurroundings besideArguments : StateM FileTree _) written).1.code =
        failureCode ∧
      ((execute {} (besideArguments ++ ["--"]) : StateM FileTree _) besideTree).1.code = 0 ∧
      ((execute {} (besideArguments ++ ["--"] ++ ["--check"]) : StateM FileTree _)
        besideTree).1.code = misuseCode) ∧
    (((execute {} discarding : StateM FileTree _) schemaTree).1.code = 0 ∧
      ((execute {} (discarding ++ ["--check"]) : StateM FileTree _) discarded).1.code =
        failureCode) ∧
    ((disputed : StateM FileTree _) schemaTree).1.code = 0 ∧
    ((execute disputedSurroundings ["-i", "s.json"] : StateM FileTree _)
      ((disputed : StateM FileTree _) schemaTree).2).1.code = failureCode := by
  exact ⟨⟨by decide, by decide +kernel⟩, by decide +kernel⟩

end CommandLine

end SchemaInterfaces
