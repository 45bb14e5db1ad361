import SchemaInterfaces.Proofs.Files.Resolution
import SchemaInterfaces.Proofs.Settings.Visiting
import SchemaInterfaces.Settings.Loading

/-!
# What loading reads

A source of settings is asked for by a path. Its file is the first that is there under the path
itself or under the path with an extension behind it, in the order in which this run tries them
(`FileTree.settingsFile?`). Loading reads these files and puts what they say over one another, the
variables last (`loadSettings_run`). So it depends on the files of its sources and on nothing else
in the tree.
-/
namespace SchemaInterfaces

/-- The paths under which a file of settings is looked for. -/
def settingsPaths (hash : String → Nat) (path : String) : List String :=
  path ::
    if (Path.fileName? path).isNone then []
    else (SettingsFormat.extensionsByHash hash).map fun (extension, _) =>
      Path.normal path ++ "." ++ extension

/-- The extensions are the same in every order. -/
theorem SettingsFormat.mem_extensionsByHash_iff {hash : String → Nat}
    {file : String × SettingsFormat} : file ∈ extensionsByHash hash ↔ file ∈ extensions := by
  rw [extensionsByHash, List.mem_map]
  constructor
  · rintro ⟨entry, member, rfl⟩
    obtain ⟨file, known, rfl⟩ := List.mem_map.mp ((mem_visited_iff hash).mp member)
    exact known
  · intro known
    exact ⟨_, (mem_visited_iff hash).mpr (List.mem_map_of_mem known), rfl⟩

namespace FileTree

/-- The first file among some paths, with its path. -/
def firstFile? (tree : FileTree) (paths : List String) : Option (String × ByteArray) :=
  paths.findSome? fun path => (tree.file? path).map (path, ·)

/-- The file of settings that is found for a path. -/
def settingsFile? (tree : FileTree) (hash : String → Nat) (path : String) :
    Option (String × ByteArray) :=
  tree.firstFile? (settingsPaths hash path)

theorem firstFile?_cons (tree : FileTree) (path : String) (paths : List String) :
    tree.firstFile? (path :: paths) =
      ((tree.file? path).map (path, ·)).or (tree.firstFile? paths) := by
  rw [firstFile?, List.findSome?_cons, firstFile?]
  cases tree.file? path <;> rfl

theorem isFile_run (path : String) (tree : FileTree) :
    (FileAccess.isFile path : StateM FileTree _) tree = ((tree.file? path).isSome, tree) := by
  rw [← isFile_eq_isSome_file?]
  rfl

end FileTree

/-! ### Finding a file -/

/-- The format of a path with one of the extensions behind it. -/
theorem SettingsFormat.ofPath?_normal_append {path : String}
    (named : (Path.fileName? path).isNone = false) :
    ∀ file ∈ extensions, ofPath? (Path.normal path ++ "." ++ file.1) = some file.2 := by
  obtain ⟨last, named⟩ := Option.isSome_iff_exists.mp (by simpa using named)
  intro (extension, format) member
  have plain : ∀ file ∈ extensions,
      file.1 ≠ "" ∧ '/' ∉ file.1.toList ∧ '.' ∉ file.1.toList ∧
        extensions.lookup file.1 = some file.2 := by
    decide
  obtain ⟨nonempty, noSlash, noDot, own⟩ := plain _ member
  rw [ofPath?, Path.extension?_normal_append named nonempty noSlash noDot]
  exact own

/-- What a file that is found is for the settings. -/
def SettingsFile.ofFound : Option (String × ByteArray) → SettingsFile
  | none => .missing
  | some (path, _) =>
    match SettingsFormat.ofPath? path with
    | some format => .found path format
    | none => .unknownFormat

theorem firstFile_run {files : List (String × SettingsFormat)}
    (formats : ∀ file ∈ files, SettingsFormat.ofPath? file.1 = some file.2) (tree : FileTree) :
    (firstFile files : StateM FileTree _) tree =
      (.ofFound (tree.firstFile? (files.map Prod.fst)), tree) := by
  induction files with
  | nil => rfl
  | cons file rest ih =>
    obtain ⟨path, format⟩ := file
    obtain ⟨own, others⟩ := List.forall_mem_cons.mp formats
    rw [firstFile, FileTree.run_bind, FileTree.isFile_run, List.map_cons,
      FileTree.firstFile?_cons]
    cases tree.file? path with
    | none => exact ih others
    | some bytes =>
      simp only [Option.map_some, Option.some_or, SettingsFile.ofFound, own]
      rfl

theorem findSettings_run (hash : String → Nat) (path : String) (tree : FileTree) :
    (findSettings hash path : StateM FileTree _) tree =
      (.ofFound (tree.settingsFile? hash path), tree) := by
  rw [findSettings, FileTree.run_bind, FileTree.isFile_run, FileTree.settingsFile?, settingsPaths,
    FileTree.firstFile?_cons]
  cases tree.file? path with
  | some bytes =>
    simp only [Option.map_some, Option.some_or, SettingsFile.ofFound, Option.isSome_some, if_true]
    cases SettingsFormat.ofPath? path <;> rfl
  | none =>
    simp only [Option.map_none, Option.none_or, Option.isSome_none, Bool.false_eq_true, if_false]
    cases named : (Path.fileName? path).isNone with
    | true => rfl
    | false =>
      simp only [Bool.false_eq_true, if_false]
      rw [firstFile_run, List.map_map]
      · rfl
      · intro file member
        obtain ⟨file, own, rfl⟩ := List.mem_map.mp member
        exact SettingsFormat.ofPath?_normal_append named file
          (SettingsFormat.mem_extensionsByHash_iff.mp own)

/-! ### What the sources say -/

/-- What a source says, or why it says nothing. -/
abbrev Said := Except SettingsError (List (String × Setting))

section

variable (surroundings : Surroundings) (tree : FileTree)

/-- What the bytes of a file say. -/
def sayBytes (path : String) (format : SettingsFormat) (bytes : ByteArray) : Said :=
  let source := Path.relativeTo (Path.join true tree.here) path
  let text := Text.withoutMark (Text.ofBytesLossy bytes)
  match format.entries? surroundings.readers text with
  | some entries => .ok (Setting.ofEntries source entries)
  | none => .error (.malformedFile (surroundings.complaint format text) source)

/-- What a file says that need not be there. -/
def sayFound : Option (String × ByteArray) → Said
  | none => .ok []
  | some (path, bytes) =>
    match SettingsFormat.ofPath? path with
    | some format => sayBytes surroundings tree path format bytes
    | none => .ok []

/-- What the file says that is found for a path, if there is one. -/
def sayOptional (path : String) : Said :=
  sayFound surroundings tree (tree.settingsFile? (surroundings.hashes .formats) path)

/-- What the file says that is asked for by a path. -/
def sayRequired (asked : String) : Said :=
  match tree.settingsFile? (surroundings.hashes .formats) asked with
  | none => .error (.missingFile asked)
  | some (path, bytes) =>
    match SettingsFormat.ofPath? path with
    | some format => sayBytes surroundings tree path format bytes
    | none => .error (.unknownFormat (Path.within (Path.join true tree.here) asked))

/-- What the user's own settings say. -/
def sayUser : Said :=
  match surroundings.userSettings with
  | none => .ok []
  | some path => if (tree.find path).isOk then sayOptional surroundings tree path else .ok []

/-- What the settings say that are asked for, if any are. -/
def sayExplicit : Option String → Said
  | none => .ok []
  | some path => sayRequired surroundings tree path

/-- What the files of settings say, in the order in which they are put over one another. -/
def sayFiles (explicit : Option String) : List Said :=
  commonFiles.map (sayOptional surroundings tree) ++
    [sayUser surroundings tree, sayExplicit surroundings tree explicit]

/-- What all sources say: the files, and then the variables. -/
def saySources (explicit : Option String) : List Said :=
  sayFiles surroundings tree explicit ++ [.ok (Variable.entries surroundings.assignments)]

end

/-- Values with what some sources say put over them, up to the first error. The entries of a source
are met in the order of its hashes. -/
def mergeSaid (hashes : Nat → List String → String → Nat) (values : Setting) :
    List Said → Except SettingsError Setting
  | [] => .ok values
  | said :: rest =>
    said.bind fun entries =>
      mergeSaid (fun number => hashes (number + 1))
        (values.putSource (Setting.inOrder (hashes 0) entries)) rest

/-- The settings that come of what some sources say. -/
def settle (surroundings : Surroundings) (sources : List Said) : Except SettingsError Settings :=
  (mergeSaid (fun number path => surroundings.hashes (.source number path)) (.table none [])
    sources).bind (Settings.ofValues fun path => surroundings.hashes (.merged path))

/-! ### Loading -/

section

variable (surroundings : Surroundings) (tree : FileTree)

theorem read_of_settingsFile? {hash : String → Nat} {asked path : String} {bytes : ByteArray}
    (found : tree.settingsFile? hash asked = some (path, bytes)) : tree.read path = .ok bytes := by
  obtain ⟨path', _, here⟩ := List.exists_of_findSome?_eq_some found
  obtain ⟨bytes', held, same⟩ := Option.map_eq_some_iff.mp here
  cases same
  exact (FileTree.file?_eq_some_iff_read.mp held).1

theorem readSettings_run {path : String} {bytes : ByteArray} (held : tree.read path = .ok bytes)
    (format : SettingsFormat) :
    (readSettings surroundings path format : StateM FileTree _) tree =
      (sayBytes surroundings tree path format bytes, tree) := by
  rw [readSettings, FileTree.run_bind, FileTree.readBytes_run, held, sayBytes]
  dsimp only
  rw [FileTree.run_bind, FileTree.directory_run]
  cases format.entries? surroundings.readers (Text.withoutMark (Text.ofBytesLossy bytes)) <;> rfl

theorem sayBytes_ne_unreadable {path : String} {format : SettingsFormat} {bytes : ByteArray}
    {error : FileError} :
    sayBytes surroundings tree path format bytes ≠ .error (.unreadableFile error) := by
  rw [sayBytes]
  split <;> simp

theorem readOptional_run (path : String) :
    (readOptional surroundings path : StateM FileTree _) tree =
      (sayOptional surroundings tree path, tree) := by
  rw [readOptional, FileTree.run_bind, findSettings_run, sayOptional]
  cases found : tree.settingsFile? (surroundings.hashes .formats) path with
  | none => rfl
  | some file =>
    obtain ⟨path, bytes⟩ := file
    rw [SettingsFile.ofFound, sayFound]
    cases SettingsFormat.ofPath? path with
    | none => rfl
    | some format =>
      dsimp only
      rw [FileTree.run_bind, readSettings_run surroundings tree (read_of_settingsFile? tree found)]
      cases said : sayBytes surroundings tree path format bytes with
      | ok entries => rfl
      | error error =>
        cases error with
        | unreadableFile => exact absurd said (sayBytes_ne_unreadable surroundings tree)
        | _ => rfl

theorem readRequired_run (path : String) :
    (readRequired surroundings path : StateM FileTree _) tree =
      (sayRequired surroundings tree path, tree) := by
  rw [readRequired, FileTree.run_bind, findSettings_run, sayRequired]
  cases found : tree.settingsFile? (surroundings.hashes .formats) path with
  | none => rfl
  | some file =>
    obtain ⟨found_path, bytes⟩ := file
    rw [SettingsFile.ofFound]
    dsimp only
    cases SettingsFormat.ofPath? found_path with
    | none => rfl
    | some format => exact readSettings_run surroundings tree (read_of_settingsFile? tree found) _

theorem readUserSettings_run :
    (readUserSettings surroundings : StateM FileTree _) tree =
      (sayUser surroundings tree, tree) := by
  rw [readUserSettings, sayUser]
  cases surroundings.userSettings with
  | none => rfl
  | some path =>
    dsimp only
    rw [FileTree.run_bind, show (FileAccess.isPresent path : StateM FileTree Bool) tree =
      ((tree.find path).isOk, tree) from rfl]
    cases (tree.find path).isOk with
    | true => exact readOptional_run surroundings tree path
    | false => rfl

theorem readExplicit_run (explicit : Option String) :
    (readExplicit surroundings explicit : StateM FileTree _) tree =
      (sayExplicit surroundings tree explicit, tree) := by
  cases explicit with
  | none => rfl
  | some path => exact readRequired_run surroundings tree path

end

theorem mergeSources_run {tree : FileTree} {sources : List (StateM FileTree Said)}
    {said : List Said} (runs : sources.map (· tree) = said.map (·, tree))
    (hashes : Nat → List String → String → Nat) (values : Setting) :
    (mergeSources hashes values sources : StateM FileTree _) tree =
      (mergeSaid hashes values said, tree) := by
  induction sources generalizing said hashes values with
  | nil =>
    cases said with
    | nil => rfl
    | cons first said => cases runs
  | cons source rest ih =>
    cases said with
    | nil => cases runs
    | cons first said =>
      obtain ⟨here, others⟩ := List.cons.inj runs
      change source tree = (first, tree) at here
      rw [mergeSources, FileTree.run_bind, here, mergeSaid]
      cases first with
      | error error => rfl
      | ok entries => exact ih others _ _

/-- Loading puts what the files say over one another, and the variables over that. -/
theorem loadSettings_run (surroundings : Surroundings) (explicit : Option String)
    (tree : FileTree) :
    (loadSettings surroundings explicit : StateM FileTree _) tree =
      (settle surroundings (saySources surroundings tree explicit), tree) := by
  have runs : (commonFiles.map (readOptional surroundings) ++
      [readUserSettings surroundings, readExplicit surroundings explicit,
        pure (.ok (Variable.entries surroundings.assignments))]).map
          (fun source : StateM FileTree _ => source tree) =
      (saySources surroundings tree explicit).map (·, tree) := by
    simp [saySources, sayFiles, commonFiles, readOptional_run, readUserSettings_run,
      readExplicit_run, FileTree.run_pure]
  rw [loadSettings, FileTree.run_bind, mergeSources_run runs, settle]
  cases mergeSaid (fun number path => surroundings.hashes (.source number path)) (.table none [])
    (saySources surroundings tree explicit) <;> rfl

end SchemaInterfaces
