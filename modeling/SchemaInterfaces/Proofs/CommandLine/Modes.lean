import SchemaInterfaces.CommandLine.Run
import SchemaInterfaces.Proofs.CommandLine.Arguments
import SchemaInterfaces.Proofs.Settings.Ambiguity
import SchemaInterfaces.Proofs.Settings.Loading
import SchemaInterfaces.Proofs.Writing

/-!
# Printing, checking and writing agree

A run prepares code and then prints it, compares it with the output file or writes it there. What is
prepared depends on the files and not on the mode, so runs that load the same settings fail alike
before a mode matters, and speak of one text and one file afterwards (`modes_agree`). Runs go
through tables in different orders, though, so they may tell different faults or load different
settings, and what is written to the null device is not there afterwards (`exists_modes_differ`).
-/
namespace SchemaInterfaces.CommandLine

open FileTree (OnlyReads)

/-! ### Preparing -/

/-- The settings of a run with the code that it generates. -/
def prepared (surroundings : Surroundings) (arguments : Arguments) :
    StateM FileTree (Except Failure (Settings × Generated)) := do
  match ← loadSettings surroundings arguments.config with
  | .error error => return .error (.settings error)
  | .ok settings =>
    match ← generate (arguments.applyTo settings) with
    | .error failure => return .error failure
    | .ok generated => return .ok (arguments.applyTo settings, generated)

/-- What a run does with what is prepared. -/
def conclude (arguments : Arguments) :
    Except Failure (Settings × Generated) → StateM FileTree Outcome
  | .error failure => return .failed "" failure
  | .ok (settings, generated) =>
    if arguments.stdout then return { stdout := generated.code }
    else if arguments.check then compareOutput settings.outputPath generated.code
    else deliver settings.outputPath generated

theorem onlyReads_readDocument (path : String) : OnlyReads (readDocument path) := by
  unfold readDocument
  split
  · exact .pure _
  · refine .bind (.readText _) fun text => ?_
    split <;> exact .pure _

theorem onlyReads_generate (settings : Settings) : OnlyReads (generate settings) := by
  refine .bind (onlyReads_readDocument _) fun document => ?_
  split
  · exact .pure _
  · split <;> exact .pure _

/-- A run that saves no settings prepares code and concludes with it. -/
theorem run_eq {arguments : Arguments} (generates : arguments.init = none)
    (surroundings : Surroundings) (tree : FileTree) :
    (run surroundings arguments : StateM FileTree _) tree =
      conclude arguments (prepared surroundings arguments tree).1 tree := by
  obtain ⟨loaded, load⟩ := (onlyReads_loadSettings surroundings arguments.config).run tree
  unfold run prepared
  rw [FileTree.run_bind, FileTree.run_bind, load]
  cases loaded with
  | error error => rfl
  | ok settings =>
    obtain ⟨produced, produce⟩ := (onlyReads_generate (arguments.applyTo settings)).run tree
    simp only [perform, generates, FileTree.run_bind, produce]
    cases produced <;> rfl

/-- What a run loads as its settings, if its arguments are in order. -/
def loaded? (surroundings : Surroundings) (given : List String) (tree : FileTree) :
    Option (Except SettingsError Settings) :=
  match Request.ofArguments? given with
  | some (.run arguments) =>
    some ((loadSettings surroundings arguments.config : StateM FileTree _) tree).1
  | _ => none

/-- What is prepared once settings are loaded. -/
def prepareFrom (arguments : Arguments) (tree : FileTree) :
    Except SettingsError Settings → Except Failure (Settings × Generated)
  | .error error => .error (.settings error)
  | .ok settings =>
    ((generate (arguments.applyTo settings) : StateM FileTree _) tree).1.map
      (arguments.applyTo settings, ·)

/-- Preparing depends on the surroundings by the settings that are loaded. -/
theorem prepared_run (surroundings : Surroundings) (arguments : Arguments) (tree : FileTree) :
    (prepared surroundings arguments tree).1 = prepareFrom arguments tree
      ((loadSettings surroundings arguments.config : StateM FileTree _) tree).1 := by
  obtain ⟨loaded, load⟩ := (onlyReads_loadSettings surroundings arguments.config).run tree
  rw [prepared, FileTree.run_bind, load]
  cases loaded with
  | error error => rfl
  | ok settings =>
    obtain ⟨produced, produce⟩ := (onlyReads_generate (arguments.applyTo settings)).run tree
    simp only [prepareFrom, FileTree.run_bind, produce]
    cases produced <;> rfl

/-- The output file of a run, if its arguments and its settings are in order. -/
def configuredOutput? (surroundings : Surroundings) (arguments : List String) (tree : FileTree) :
    Option String :=
  match Request.ofArguments? arguments with
  | some (.run arguments) =>
    match ((loadSettings surroundings arguments.config : StateM FileTree _) tree).1 with
    | .ok settings => some (arguments.applyTo settings).outputPath
    | .error _ => none
  | _ => none

theorem configuredOutput?_of_prepared {surroundings : Surroundings} {given : List String}
    {arguments : Arguments} {tree : FileTree} {settings : Settings} {generated : Generated}
    (request : Request.ofArguments? given = some (.run arguments))
    (h : (prepared surroundings arguments tree).1 = .ok (settings, generated)) :
    configuredOutput? surroundings given tree = some settings.outputPath := by
  rw [configuredOutput?, request]
  obtain ⟨loaded, load⟩ := (onlyReads_loadSettings surroundings arguments.config).run tree
  unfold prepared at h
  rw [FileTree.run_bind, load] at h
  cases loaded with
  | error error => cases h
  | ok loadedSettings =>
    obtain ⟨produced, produce⟩ := (onlyReads_generate (arguments.applyTo loadedSettings)).run tree
    simp only [FileTree.run_bind, produce] at h
    cases produced with
    | error failure => cases h
    | ok generated =>
      cases h
      simp only [load]

/-! ### Concluding -/

theorem compareOutput_run (path code : String) (tree : FileTree) :
    (compareOutput path code : StateM FileTree _) tree =
      (match Drift.report path code (tree.text path) with
        | .error error => .failed "" (.output error)
        | .ok drift =>
          if drift.agrees then { stderr := "✅ " ++ path ++ " is up to date\n" }
          else .failed (driftNotes path drift) (.drift path), tree) := by
  unfold compareOutput
  rw [FileTree.run_bind, Drift.ofFile_run]
  cases Drift.report path code (tree.text path) with
  | error error => rfl
  | ok drift => by_cases agrees : drift.agrees = true <;> simp only [agrees] <;> rfl

/-- The comparison succeeds exactly where the output file holds the code. -/
theorem code_compareOutput (path code : String) (tree : FileTree) :
    ((compareOutput path code : StateM FileTree _) tree).1.code = 0 ↔
      tree.read path = .ok code.toUTF8 := by
  rw [compareOutput_run, ← FileTree.text_eq_ok]
  cases tree.text path with
  | ok existing =>
    rw [Drift.report, Except.ok.injEq, ← Drift.agrees_ofTexts_iff path]
    by_cases agrees : (Drift.ofTexts path existing code).agrees = true <;>
      simp [agrees, Outcome.failed, failureCode]
  | error error => cases error <;> simp [Drift.report, Drift.agrees, Outcome.failed, failureCode]

theorem deliver_run (path : String) (generated : Generated) (tree : FileTree) :
    (deliver path generated : StateM FileTree _) tree =
      (match ((writeGenerated path generated.code : StateM FileTree _) tree).1 with
        | .error error => .failed "" (.output error)
        | .ok count => {
            stderr := "📦 TypeScript declarations generated at '" ++ path ++ "'\n   "
              ++ toString generated.interfaceCount ++ " interfaces, "
              ++ toString generated.fieldCount ++ " fields, " ++ toString count ++ " bytes\n" },
        ((writeGenerated path generated.code : StateM FileTree _) tree).2) := by
  rw [deliver, FileTree.run_bind]
  cases ((writeGenerated path generated.code : StateM FileTree _) tree).1 <;> rfl

/-- A delivery that succeeds leaves the code in the output file, unless that is the null device. -/
theorem read_deliver {path : String} {generated : Generated} {tree : FileTree}
    (h : ((deliver path generated : StateM FileTree _) tree).1.code = 0)
    (kept : ((deliver path generated : StateM FileTree _) tree).2.resolve path ≠
      .ok FileTree.nullDevice) :
    ((deliver path generated : StateM FileTree _) tree).2.read path =
      .ok generated.code.toUTF8 := by
  rw [deliver_run] at h kept ⊢
  cases written : ((writeGenerated path generated.code : StateM FileTree _) tree).1 with
  | error error => rw [written] at h; cases h
  | ok count => exact read_writeGenerated (Prod.ext written rfl) kept

/-! ### The three modes -/

section

variable {settled : Arguments} (settings : Settings) (generated : Generated)

theorem conclude_printing :
    conclude { settled with stdout := true } (.ok (settings, generated)) =
      pure { stdout := generated.code } := rfl

theorem conclude_checking (writes : settled.Writes) :
    conclude { settled with check := true } (.ok (settings, generated)) =
      compareOutput settings.outputPath generated.code := by
  simp [conclude, writes.stdout]

theorem conclude_writing (writes : settled.Writes) :
    conclude settled (.ok (settings, generated)) = deliver settings.outputPath generated := by
  simp [conclude, writes.stdout, writes.check]

end

section

variable {surroundings : Surroundings} {given : List String} {tree : FileTree} {settled : Arguments}

theorem loaded?_eq (request : Request.ofArguments? given = some (.run settled)) :
    loaded? surroundings given tree =
      some ((loadSettings surroundings settled.config : StateM FileTree _) tree).1 := by
  rw [loaded?, request]

/-- A run concludes with what is prepared for arguments that differ in nothing that matters for
that. -/
theorem execute_of_request {switched : Arguments}
    (request : Request.ofArguments? given = some (.run switched)) (init : switched.init = none)
    (same : prepared surroundings switched = prepared surroundings settled) :
    (execute surroundings given : StateM FileTree _) tree =
      conclude switched (prepareFrom settled tree
        ((loadSettings surroundings settled.config : StateM FileTree _) tree).1) tree := by
  rw [execute, request]
  dsimp only
  rw [run_eq init, same, prepared_run]

end

/-- Two runs that load the same settings, or fail to load any. -/
def LoadAlike (first second : Surroundings) (given : List String) (tree : FileTree) : Prop :=
  (loaded? first given tree).map Except.toOption = (loaded? second given tree).map Except.toOption

/-- Printing in one run agrees with checking and writing in another. Where printing fails, the
others fail as well and change nothing, with the same words if their settings have the same error or
none. Where it prints a text, checking tells whether the output file holds that text, and writing
leaves it there, unless the output is the null device. -/
def ModesAgree (first second : Surroundings) (given : List String) (tree : FileTree) : Prop :=
  let printed := (execute first (given ++ ["--stdout"]) : StateM FileTree _) tree
  let checked := (execute second (given ++ ["--check"]) : StateM FileTree _) tree
  let written := (execute second given : StateM FileTree _) tree
  (printed.1.code = failureCode → printed.2 = tree ∧
    (written.1.code = failureCode ∧ written.2 = tree) ∧
    (checked.1.code = failureCode ∧ checked.2 = tree) ∧
    (loaded? first given tree = loaded? second given tree →
      written.1.stderr = printed.1.stderr ∧ checked.1.stderr = printed.1.stderr)) ∧
  (printed.1.code = 0 → ∃ path, configuredOutput? first given tree = some path ∧
    (checked.1.code = 0 ↔ tree.read path = .ok printed.1.stdout.toUTF8) ∧
    (written.1.code = 0 → written.2.resolve path ≠ .ok FileTree.nullDevice →
      written.2.read path = .ok printed.1.stdout.toUTF8))

theorem modesAgree_of_loadAlike {first second : Surroundings} {given : List String}
    {tree : FileTree}
    (noMode : ∀ argument ∈ given, (Word.ofArgument argument).choosesMode = false)
    (alike : LoadAlike first second given tree) : ModesAgree first second given tree := by
  have extended : Request.Extends {} given := Request.extends_of_writes ⟨rfl, rfl, rfl⟩ noMode
  obtain misused | ⟨settled, writes, request, printing, checking⟩ := extended
  · simp [ModesAgree, execute, Request.ofArguments?, misused, FileTree.run_pure, misuseCode,
      failureCode]
  · -- The three runs differ in one switch, and nothing that is prepared depends on it.
    have printed : (execute first (given ++ ["--stdout"]) : StateM FileTree _) tree =
        conclude { settled with stdout := true } (prepareFrom settled tree
          ((loadSettings first settled.config : StateM FileTree _) tree).1) tree :=
      execute_of_request printing writes.init rfl
    have checked : (execute second (given ++ ["--check"]) : StateM FileTree _) tree =
        conclude { settled with check := true } (prepareFrom settled tree
          ((loadSettings second settled.config : StateM FileTree _) tree).1) tree :=
      execute_of_request checking writes.init rfl
    have written : (execute second given : StateM FileTree _) tree =
        conclude settled (prepareFrom settled tree
          ((loadSettings second settled.config : StateM FileTree _) tree).1) tree :=
      execute_of_request request writes.init rfl
    unfold ModesAgree
    rw [LoadAlike, loaded?_eq request, loaded?_eq request] at alike
    rw [printed, checked, written, loaded?_eq request, loaded?_eq request]
    dsimp only
    cases one : ((loadSettings first settled.config : StateM FileTree _) tree).1 with
    | error error =>
      cases another : ((loadSettings second settled.config : StateM FileTree _) tree).1 with
      | ok settings =>
        rw [one, another] at alike
        cases alike
      | error error' =>
        simp +contextual [prepareFrom, conclude, FileTree.run_pure, Outcome.failed, failureCode]
    | ok loaded =>
      have another : ((loadSettings second settled.config : StateM FileTree _) tree).1 =
          .ok loaded :=
        (toOption_eq_iff.mp (Option.some.inj alike) loaded).mp one
      rw [another]
      cases outcome : prepareFrom settled tree (.ok loaded) with
      | error failure => simp [conclude, FileTree.run_pure, Outcome.failed, failureCode]
      | ok result =>
        obtain ⟨settings, generated⟩ := result
        rw [conclude_printing, conclude_checking settings generated writes,
          conclude_writing settings generated writes, FileTree.run_pure]
        refine ⟨fun failed => (by cases failed),
          fun _ => ⟨settings.outputPath, ?_, ?_, read_deliver⟩⟩
        · exact configuredOutput?_of_prepared request (by rw [prepared_run, one, outcome])
        · exact code_compareOutput settings.outputPath generated.code tree

/-- Without arguments that choose a mode, printing, checking and writing agree in runs that load the
same settings or none, though each goes through tables in its own order. Without ambiguity in the
sources loading ends alike in every order but for its error, and a single fault has the same error
in every order. -/
theorem modes_agree (surroundings : Surroundings) (given : List String) (tree : FileTree)
    (noMode : ∀ argument ∈ given, (Word.ofArgument argument).choosesMode = false) :
    (∀ order other : Hashes,
      LoadAlike { surroundings with hashes := order } { surroundings with hashes := other } given
          tree →
        ModesAgree { surroundings with hashes := order } { surroundings with hashes := other } given
          tree) ∧
    ∀ arguments, Request.ofArguments? given = some (.run arguments) →
      IsUnambiguous surroundings arguments.config tree → ∀ order : Hashes,
        LoadAlike { surroundings with hashes := order } surroundings given tree ∧
          (HasOneFault surroundings (saySources surroundings tree arguments.config) →
            loaded? { surroundings with hashes := order } given tree =
              loaded? surroundings given tree) := by
  refine ⟨fun order other => modesAgree_of_loadAlike noMode,
    fun arguments request unambiguous order => ?_⟩
  rw [LoadAlike, loaded?_eq request, loaded?_eq request]
  refine ⟨congrArg some (loadSettings_toOption_of_isUnambiguous unambiguous order),
    fun single => ?_⟩
  exact congrArg some (loadSettings_of_isUnambiguous unambiguous single order)

/-- A directory with a schema and no output file. -/
def schemaTree : FileTree where
  entries := [(["s.json"], .file "\x7b\"context\":\x7b\"type\":\"object\"\x7d\x7d".toUTF8)]

def schemaArguments : List String := ["-i", "s.json", "-o", "out.ts"]

/-- An order of tables by the lengths of their keys. -/
def byLength : Hashes := fun _ key => key.length

/-- The schema can be printed. Before it is written the check fails in a run with another order, and
writing leaves in the output file what printing prints: no source has anything ambiguous to say. -/
theorem modes_agree_schemaTree :
    (∀ argument ∈ schemaArguments, (Word.ofArgument argument).choosesMode = false) ∧
      ((execute {} (schemaArguments ++ ["--stdout"]) : StateM FileTree _) schemaTree).1.code = 0 ∧
      ((execute { hashes := byLength } (schemaArguments ++ ["--check"]) : StateM FileTree _)
        schemaTree).1.code ≠ 0 ∧
      ((execute { hashes := byLength } schemaArguments : StateM FileTree _)
          schemaTree).2.read "out.ts" =
        .ok ((execute {} (schemaArguments ++ ["--stdout"]) : StateM FileTree _)
          schemaTree).1.stdout.toUTF8 := by
  have noMode : ∀ argument ∈ schemaArguments, (Word.ofArgument argument).choosesMode = false := by
    decide
  have printed : ((execute {} (schemaArguments ++ ["--stdout"]) : StateM FileTree _)
      schemaTree).1.code = 0 := by
    decide +kernel
  have written : ((execute { hashes := byLength } schemaArguments : StateM FileTree _)
      schemaTree).1.code = 0 := by
    decide +kernel
  have configured : configuredOutput? {} schemaArguments schemaTree = some "out.ts" := by
    decide +kernel
  have absent : schemaTree.read "out.ts" = .error .notFound := by rfl
  have request : Request.ofArguments? schemaArguments =
      some (.run { input := some "s.json", output := some "out.ts" }) := by
    decide +kernel
  have files : ∀ asked ∈ commonFiles, schemaTree.HasOneStandIn asked := by
    unfold FileTree.HasOneStandIn
    decide +kernel
  have missing : ∀ asked ∈ commonFiles, schemaTree.settingsFile? (fun _ => 0) asked = none := by
    decide +kernel
  have unambiguous : IsUnambiguous {} none schemaTree :=
    isUnambiguous_of_layers files
      ⟨.absent (missing _ (by decide)), .absent (missing _ (by decide)),
        .absent (missing _ (by decide)), .unknown rfl⟩
      .none (Layer.isAssigned_nothing (by simp))
  obtain ⟨agrees, ordered⟩ := modes_agree {} schemaArguments schemaTree noMode
  have alike : LoadAlike {} { hashes := byLength } schemaArguments schemaTree :=
    (ordered _ request unambiguous byLength).1.symm
  have elsewhere : ((execute { hashes := byLength } schemaArguments : StateM FileTree _)
      schemaTree).2.resolve "out.ts" ≠ .ok FileTree.nullDevice := by
    decide +kernel
  have agree : ModesAgree {} { hashes := byLength } schemaArguments schemaTree :=
    agrees (fun _ _ => 0) byLength alike
  obtain ⟨path, output, checks, writes⟩ := agree.2 printed
  obtain rfl : path = "out.ts" := Option.some.inj (output.symm.trans configured)
  refine ⟨noMode, printed, fun agreed => ?_, writes written elsewhere⟩
  have held := checks.mp agreed
  rw [absent] at held
  cases held

/-- A directory with two settings of a wrong kind. -/
def faultyTree : FileTree where
  entries := [(["typegen.toml.json"],
    .file "\x7b\"output\":\x7b\"indent\":\"wide\",\"docs\":\"maybe\"\x7d\x7d".toUTF8)]

/-- A variable for a setting, and one that takes the place of its section. -/
def disputedSurroundings : Surroundings where
  assignments := [("TYPEGEN__OUTPUT__PATH", "out.ts"), ("TYPEGEN__OUTPUT", "x")]

def discarding : List String := ["-i", "s.json", "-o", "/dev/null"]

/-- Of two faults each run tells the one that it meets first, and of two variables that exclude each
other the later one in the order of the run counts. A text that is written to the null device is not
there afterwards, though writing it succeeds. -/
theorem exists_modes_differ :
    (((execute {} ["--stdout"] : StateM FileTree _) faultyTree).1.code = failureCode ∧
      ((execute { hashes := byLength } [] : StateM FileTree _) faultyTree).1.code = failureCode ∧
      ((execute { hashes := byLength } [] : StateM FileTree _) faultyTree).1.stderr ≠
        ((execute {} ["--stdout"] : StateM FileTree _) faultyTree).1.stderr) ∧
    (((execute disputedSurroundings (["-i", "s.json"] ++ ["--stdout"]) : StateM FileTree _)
        schemaTree).1.code = failureCode ∧
      ((execute { disputedSurroundings with hashes := byLength } ["-i", "s.json"] :
        StateM FileTree _) schemaTree).1.code = 0) ∧
    (∀ argument ∈ discarding, (Word.ofArgument argument).choosesMode = false) ∧
    ((execute {} (discarding ++ ["--stdout"]) : StateM FileTree _) schemaTree).1.code = 0 ∧
    configuredOutput? {} discarding schemaTree = some "/dev/null" ∧
    ((execute {} discarding : StateM FileTree _) schemaTree).1.code = 0 ∧
    ((execute {} discarding : StateM FileTree _) schemaTree).2.read "/dev/null" ≠
      .ok ((execute {} (discarding ++ ["--stdout"]) : StateM FileTree _)
        schemaTree).1.stdout.toUTF8 := by
  exact ⟨by decide +kernel, by decide +kernel, by decide, by decide +kernel⟩

end SchemaInterfaces.CommandLine
