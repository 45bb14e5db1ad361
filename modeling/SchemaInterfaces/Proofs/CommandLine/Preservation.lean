import SchemaInterfaces.Proofs.CommandLine.Repetition

/-!
# What a run leaves alone

A run writes one file at most, and only when it succeeds: the file that the settings are saved to,
or else the output file. Everything before the write only reads, and a write that fails changes no
file, though directories may have been made for it. So a run that fails, and one that prints, checks
or explains, leaves every file as it was (`execute_preserves`).
-/
namespace SchemaInterfaces

open FileTree (AddsDirectories IsWritten OnlyReads)

/-- The file at the end of a path may be new or have a new content. No other file is created,
changed or removed, and no directory is gone. -/
def FileTree.ChangesOnly (tree after : FileTree) (path : String) : Prop :=
  ∃ place, after.resolve path = .ok place ∧ IsWritten tree after place

section

variable {path code : String} {tree : FileTree}

/-! ### One lemma for each way to write -/

/-- Settings that cannot be saved leave the tree as it is, and saved ones change their file. -/
theorem save_cases (settings : Settings) (path : String) (tree : FileTree) :
    (∃ error, (settings.save path : StateM FileTree _) tree = (.error error, tree)) ∨
      ∃ written, (settings.save path : StateM FileTree _) tree = (.ok (), written) ∧
        tree.ChangesOnly written path := by
  rw [Settings.save]
  split
  next => exact .inl ⟨.outOfRange, rfl⟩
  next =>
    rw [FileTree.writeText_run]
    cases wrote : tree.write path settings.text.toUTF8 with
    | error error => exact .inl ⟨error, rfl⟩
    | ok written =>
      obtain ⟨place, leads, free, rfl⟩ := FileTree.write_eq_ok wrote
      exact .inr ⟨_, rfl, place, (FileTree.resolve_store_iff free).mpr leads,
        FileTree.isWritten_of_addsDirectories (.refl tree) free⟩

/-- Code that cannot be written leaves nothing but directories. -/
theorem addsDirectories_of_writeGenerated {error : FileError}
    (fails : ((writeGenerated path code : StateM FileTree _) tree).1 = .error error) :
    AddsDirectories tree ((writeGenerated path code : StateM FileTree _) tree).2 := by
  have adds := addsDirectories_makeParent path tree
  rw [writeGenerated, FileTree.run_bind] at fails ⊢
  generalize (makeParent path : StateM FileTree _) tree = parent at fails adds ⊢
  obtain ⟨made, grown⟩ := parent
  cases made with
  | error error => exact adds
  | ok _ =>
    simp only [FileTree.run_bind, FileTree.writeText_run] at fails ⊢
    cases wrote : grown.write path code.toUTF8 with
    | error error => exact adds
    | ok written =>
      rw [wrote] at fails
      cases fails

end

namespace CommandLine

variable {surroundings : Surroundings} {arguments : Arguments} {tree : FileTree}

theorem onlyReads_compareOutput (path code : String) : OnlyReads (compareOutput path code) :=
  fun tree => by rw [compareOutput_run]

theorem deliver_cases (path : String) (generated : Generated) (tree : FileTree) :
    (((deliver path generated : StateM FileTree _) tree).1.code ≠ 0 ∧
        AddsDirectories tree ((deliver path generated : StateM FileTree _) tree).2) ∨
      (((deliver path generated : StateM FileTree _) tree).1.code = 0 ∧
        tree.ChangesOnly ((deliver path generated : StateM FileTree _) tree).2 path) := by
  rw [deliver_run]
  cases wrote : ((writeGenerated path generated.code : StateM FileTree _) tree).1 with
  | error error => exact .inl ⟨Nat.one_ne_zero, addsDirectories_of_writeGenerated wrote⟩
  | ok count =>
    obtain ⟨place, leads, _, _, isWritten⟩ := isWritten_of_writeGenerated (Prod.ext wrote rfl)
    exact .inr ⟨rfl, place, leads, isWritten⟩

/-! ### One lemma for each mode of a run -/

/-- A run that saves its settings changes their file, or nothing if it fails. -/
theorem run_saving {path : String} (saves : arguments.init = some path) :
    (((run surroundings arguments : StateM FileTree _) tree).1.code ≠ 0 →
        ((run surroundings arguments : StateM FileTree _) tree).2 = tree) ∧
      (((run surroundings arguments : StateM FileTree _) tree).1.code = 0 →
        tree.ChangesOnly ((run surroundings arguments : StateM FileTree _) tree).2 path) := by
  obtain ⟨loaded, load⟩ := (onlyReads_loadSettings surroundings arguments.config).run tree
  rw [run, FileTree.run_bind, load]
  cases loaded with
  | error error => exact ⟨fun _ => rfl, fun succeeds => absurd succeeds Nat.one_ne_zero⟩
  | ok settings =>
    simp only [perform, saves, saveSettings, FileTree.run_bind]
    rcases save_cases (arguments.applyTo settings) path tree with
      ⟨error, saved⟩ | ⟨written, saved, changes⟩
    · rw [saved]
      exact ⟨fun _ => rfl, fun succeeds => absurd succeeds Nat.one_ne_zero⟩
    · rw [saved]
      exact ⟨fun fails => absurd rfl fails, fun _ => changes⟩

/-- A run that prints or checks its code changes nothing. -/
theorem run_reading (noInit : arguments.init = none)
    (reads : arguments.stdout = true ∨ arguments.check = true) :
    ((run surroundings arguments : StateM FileTree _) tree).2 = tree := by
  rw [run_eq noInit]
  cases (prepared surroundings arguments tree).1 with
  | error failure => rfl
  | ok result =>
    obtain ⟨settings, generated⟩ := result
    rw [conclude]
    split
    next => rfl
    next printing =>
      rw [if_pos (reads.resolve_left printing)]
      exact onlyReads_compareOutput _ _ tree

/-- A run that writes its code changes the output file, or leaves nothing but directories if it
fails. -/
theorem run_writing {given : List String}
    (request : Request.ofArguments? given = some (.run arguments)) (writes : arguments.Writes) :
    (((run surroundings arguments : StateM FileTree _) tree).1.code ≠ 0 →
        AddsDirectories tree ((run surroundings arguments : StateM FileTree _) tree).2) ∧
      (((run surroundings arguments : StateM FileTree _) tree).1.code = 0 →
        ∃ path, configuredOutput? surroundings given tree = some path ∧
          tree.ChangesOnly ((run surroundings arguments : StateM FileTree _) tree).2 path) := by
  cases prepares : (prepared surroundings arguments tree).1 with
  | error failure =>
    rw [run_eq writes.init, prepares]
    exact ⟨fun _ => .refl tree, fun succeeds => absurd succeeds Nat.one_ne_zero⟩
  | ok result =>
    obtain ⟨settings, generated⟩ := result
    rw [run_of_prepared writes prepares]
    have configured := configuredOutput?_of_prepared request prepares
    rcases deliver_cases settings.outputPath generated tree with ⟨fails, adds⟩ | ⟨succeeds, changes⟩
    · exact ⟨fun _ => adds, fun succeeds => absurd succeeds fails⟩
    · exact ⟨fun fails => absurd succeeds fails,
        fun _ => ⟨settings.outputPath, configured, changes⟩⟩

/-- A run saves its settings, only reads, or writes the output file. -/
theorem Arguments.mode_cases (arguments : Arguments) :
    (∃ path, arguments.init = some path) ∨
      (arguments.init = none ∧ (arguments.stdout = true ∨ arguments.check = true)) ∨
      arguments.Writes := by
  cases init : arguments.init with
  | some path => exact .inl ⟨path, rfl⟩
  | none =>
    cases printing : arguments.stdout with
    | true => exact .inr (.inl ⟨rfl, .inl rfl⟩)
    | false =>
      cases checking : arguments.check with
      | true => exact .inr (.inl ⟨rfl, .inr rfl⟩)
      | false => exact .inr (.inr ⟨printing, checking, init⟩)

/-- A run that fails leaves nothing but directories, in whatever mode. -/
theorem addsDirectories_of_run {given : List String}
    (request : Request.ofArguments? given = some (.run arguments))
    (fails : ((run surroundings arguments : StateM FileTree _) tree).1.code ≠ 0) :
    AddsDirectories tree ((run surroundings arguments : StateM FileTree _) tree).2 := by
  rcases arguments.mode_cases with ⟨path, saves⟩ | ⟨noInit, reads⟩ | writes
  · rw [(run_saving saves).1 fails]
    exact .refl tree
  · rw [run_reading noInit reads]
    exact .refl tree
  · exact (run_writing request writes).1 fails

/-- A run that fails changes no file, and neither does one that prints or checks, or explains the
arguments. A run that succeeds changes the file that it saves its settings to, if it is asked to do
so, and otherwise the output file; whatever else it is asked for, it changes no other file. -/
theorem execute_preserves (surroundings : Surroundings) (given : List String) (tree : FileTree) :
    let outcome := ((execute surroundings given : StateM FileTree _) tree).1
    let after := ((execute surroundings given : StateM FileTree _) tree).2
    (outcome.code ≠ 0 → AddsDirectories tree after) ∧
    (Request.ofArguments? given = some .help → after = tree) ∧
    (∀ arguments, Request.ofArguments? given = some (.run arguments) → arguments.init = none →
      arguments.stdout = true ∨ arguments.check = true → after = tree) ∧
    (∀ arguments, Request.ofArguments? given = some (.run arguments) → arguments.Writes →
      outcome.code = 0 → ∃ path, configuredOutput? surroundings given tree = some path ∧
        tree.ChangesOnly after path) ∧
    (∀ arguments path, Request.ofArguments? given = some (.run arguments) →
      arguments.init = some path → outcome.code = 0 → tree.ChangesOnly after path) := by
  cases asks : Request.ofArguments? given with
  | none =>
    have misuses : ((execute surroundings given : StateM FileTree _) tree).2 = tree := by
      rw [execute, asks]
      rfl
    dsimp only
    rw [misuses]
    refine ⟨fun _ => .refl tree, fun asked => ?_, fun _ asked => ?_, fun _ asked => ?_,
      fun _ _ asked => ?_⟩ <;> cases asked
  | some request =>
    cases request with
    | help =>
      have explains : ((execute surroundings given : StateM FileTree _) tree).2 = tree := by
        rw [execute, asks]
        rfl
      dsimp only
      rw [explains]
      refine ⟨fun _ => .refl tree, fun _ => rfl, fun _ asked => ?_, fun _ asked => ?_,
        fun _ _ asked => ?_⟩ <;> cases asked
    | run arguments =>
      have runs :
          (execute surroundings given : StateM FileTree _) = run surroundings arguments := by
        rw [execute, asks]
      rw [runs]
      refine ⟨addsDirectories_of_run asks, fun asked => ?_, ?_, ?_, ?_⟩
      · cases asked
      · rintro _ ⟨rfl⟩ noInit reads
        exact run_reading noInit reads
      · rintro _ ⟨rfl⟩ writes
        exact (run_writing asks writes).2
      · rintro _ path ⟨rfl⟩ saves
        exact (run_saving saves).2

/-- A directory is made for the output before its path turns out to name no file. The run fails, and
the schema is what it was. -/
theorem execute_preserves_halfway :
    let given := ["-i", "s.json", "-o", "new/out/"]
    let after := ((execute {} given : StateM FileTree _) schemaTree).2
    ((execute {} given : StateM FileTree _) schemaTree).1.code = failureCode ∧
      schemaTree.node? ["new"] = none ∧ AddsDirectories schemaTree after ∧
      (after.find "new").isOk = true := by
  have fails : ((execute {} ["-i", "s.json", "-o", "new/out/"] : StateM FileTree _)
      schemaTree).1.code = failureCode := by
    decide +kernel
  refine ⟨fails, by decide +kernel, ?_, by decide +kernel⟩
  refine (execute_preserves {} ["-i", "s.json", "-o", "new/out/"] schemaTree).1 ?_
  rw [fails]
  decide

end CommandLine

end SchemaInterfaces
