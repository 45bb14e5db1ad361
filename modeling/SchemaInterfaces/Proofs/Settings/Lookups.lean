import SchemaInterfaces.Proofs.Files.Growth
import SchemaInterfaces.Proofs.Settings.Sources

/-!
# The files that loading looks at

Loading looks for the file of a source at some paths, up to the first that has one (`lookups`). A
write elsewhere may still make directories on the way to these paths, but no file of another content
turns up at any of them. So the settings that are loaded stay as they are, unless a directory makes
the path of the user's settings count where only a file beside it is found
(`loadSettings_of_isWritten`).
-/
namespace SchemaInterfaces

namespace FileTree

/-- The paths that are looked at for a file: those up to the first that has one. -/
def tried (tree : FileTree) : List String → List String
  | [] => []
  | path :: rest => path :: if (tree.file? path).isSome then [] else tree.tried rest

variable {tree written : FileTree} {place : Place} {paths : List String}

theorem tried_subset (tree : FileTree) (paths : List String) : tree.tried paths ⊆ paths := by
  induction paths with
  | nil => exact List.Subset.refl []
  | cons path rest ih =>
    rw [tried]
    split
    · exact List.cons_subset_cons path (List.nil_subset rest)
    · exact List.cons_subset_cons path ih

/-- The first file depends on the paths that are looked at and on no others. -/
theorem firstFile?_of_tried
    (same : ∀ path ∈ tree.tried paths, written.file? path = tree.file? path) :
    written.firstFile? paths = tree.firstFile? paths := by
  induction paths with
  | nil => rfl
  | cons path rest ih =>
    rw [tried, List.forall_mem_cons] at same
    obtain ⟨own, others⟩ := same
    rw [firstFile?_cons, firstFile?_cons, own]
    cases held : tree.file? path with
    | some content => rfl
    | none =>
      rw [held, Option.isSome_none, if_neg Bool.false_ne_true] at others
      rw [ih others]

/-- The paths for a file of settings are the same in every order. -/
theorem mem_settingsPaths_iff {hash : String → Nat} {asked path : String} :
    path ∈ settingsPaths hash asked ↔ path = asked ∨ (Path.fileName? asked).isNone = false ∧
      ∃ file ∈ SettingsFormat.extensions, path = Path.normal asked ++ "." ++ file.1 := by
  rw [settingsPaths, List.mem_cons]
  refine or_congr_right ?_
  cases named : (Path.fileName? asked).isNone with
  | true => simp
  | false => simp [SettingsFormat.mem_extensionsByHash_iff, eq_comm]

/-- All paths for a file of settings lie in one directory. -/
theorem directory_of_mem_settingsPaths {hash : String → Nat} {asked path : String}
    (member : path ∈ settingsPaths hash asked) :
    Path.isAbsolute path = Path.isAbsolute asked ∧
      (Path.steps path).dropLast = (Path.steps asked).dropLast := by
  rcases mem_settingsPaths_iff.mp member with rfl | ⟨named, file, known, rfl⟩
  · exact ⟨rfl, rfl⟩
  · have plain : ∀ file ∈ SettingsFormat.extensions, file.1 ≠ "" ∧ '/' ∉ file.1.toList := by
      decide
    obtain ⟨nonempty, free⟩ := plain _ known
    obtain ⟨last, named⟩ := Option.isSome_iff_exists.mp (by simpa using named)
    rw [Path.isAbsolute_normal_append named nonempty free,
      Path.steps_normal_append named nonempty free, List.dropLast_concat]
    exact ⟨rfl, rfl⟩

theorem mem_of_settingsFile? {hash : String → Nat} {asked path : String} {content : ByteArray}
    (found : tree.settingsFile? hash asked = some (path, content)) :
    path ∈ settingsPaths hash asked := by
  obtain ⟨path', member, here⟩ := List.exists_of_findSome?_eq_some found
  obtain ⟨_, _, same⟩ := Option.map_eq_some_iff.mp here
  cases same
  exact member

/-- The file of settings at a path without two dots is found as before, unless one of the paths that
are looked at leads to the place of the write. -/
theorem settingsFile?_of_noUp {hash : String → Nat} {asked : String}
    (wrote : IsWritten tree written place) (wellFormed : tree.IsWellFormed)
    (noUp : ∀ path ∈ settingsPaths hash asked, ".." ∉ Path.steps path)
    (apart : ∀ path ∈ tree.tried (settingsPaths hash asked), written.resolve path ≠ .ok place) :
    written.settingsFile? hash asked = tree.settingsFile? hash asked :=
  firstFile?_of_tried fun path member =>
    file?_of_isWellFormed wrote wellFormed (noUp path (tried_subset tree _ member))
      (apart path member)

/-- The file of settings in a directory that was there is found as before, unless one of the paths
that are looked at leads to the place of the write. -/
theorem settingsFile?_of_resolve {hash : String → Nat} {asked known : String} {place' : Place}
    (wrote : IsWritten tree written place) (member : known ∈ settingsPaths hash asked)
    (leads : tree.resolve known = .ok place')
    (apart : ∀ path ∈ tree.tried (settingsPaths hash asked), written.resolve path ≠ .ok place) :
    written.settingsFile? hash asked = tree.settingsFile? hash asked := by
  obtain ⟨dir, enters⟩ := exists_enter?_of_resolve leads
  obtain ⟨absolute, steps⟩ := directory_of_mem_settingsPaths member
  refine firstFile?_of_tried fun path tried => ?_
  obtain ⟨absolute', steps'⟩ := directory_of_mem_settingsPaths (tried_subset tree _ tried)
  have enters' : tree.enter? (tree.start path) (Path.steps path).dropLast = some dir := by
    rw [start, absolute', ← absolute, ← start, steps', ← steps, enters]
  exact file?_of_entered wrote enters' (apart path tried)

end FileTree

/-- The paths at which a run looks for files while loading. For the user's settings these are none
where nothing is at their own path. -/
def lookups (surroundings : Surroundings) (explicit : Option String) (tree : FileTree) :
    List String :=
  let user := surroundings.userSettings.toList.filter fun path => (tree.find path).isOk
  (commonFiles ++ user ++ explicit.toList).flatMap fun path =>
    tree.tried (settingsPaths (surroundings.hashes .formats) path)

section

open FileTree (IsWritten)

variable {surroundings : Surroundings} {explicit : Option String} {tree written : FileTree}
  {place : Place}

theorem mem_lookups_of_mem_commonFiles {asked : String} (member : asked ∈ commonFiles) :
    ∀ path ∈ tree.tried (settingsPaths (surroundings.hashes .formats) asked),
      path ∈ lookups surroundings explicit tree :=
  fun _ tried => List.mem_flatMap.mpr
    ⟨asked, List.mem_append_left _ (List.mem_append_left _ member), tried⟩

theorem mem_lookups_of_userSettings {asked : String} (own : surroundings.userSettings = some asked)
    (there : (tree.find asked).isOk = true) :
    ∀ path ∈ tree.tried (settingsPaths (surroundings.hashes .formats) asked),
      path ∈ lookups surroundings explicit tree := by
  refine fun _ tried => List.mem_flatMap.mpr
    ⟨asked, List.mem_append_left _ (List.mem_append_right _ ?_), tried⟩
  rw [own]
  exact List.mem_filter.mpr ⟨List.mem_singleton_self asked, there⟩

theorem mem_lookups_of_explicit {asked : String} :
    ∀ path ∈ tree.tried (settingsPaths (surroundings.hashes .formats) asked),
      path ∈ lookups surroundings (some asked) tree :=
  fun _ tried => List.mem_flatMap.mpr
    ⟨asked, List.mem_append_right _ (List.mem_singleton_self asked), tried⟩

/-- Sources that could be put over one another have all said something. -/
theorem exists_ok_of_mergeSaid {hashes : Nat → List String → String → Nat}
    {values merged : Setting} {sources : List Said}
    (merges : mergeSaid hashes values sources = .ok merged) :
    ∀ said ∈ sources, ∃ entries, said = .ok entries := by
  induction sources generalizing hashes values with
  | nil => simp
  | cons first rest ih =>
    cases first with
    | error error => cases merges
    | ok entries => exact List.forall_mem_cons.mpr ⟨⟨entries, rfl⟩, ih merges⟩

/-- Where settings are loaded, the file that is asked for was found. -/
theorem exists_settingsFile?_of_loadSettings {asked : String} {settings : Settings}
    (loads : ((loadSettings surroundings (some asked) : StateM FileTree _) tree).1 =
      .ok settings) :
    ∃ found, tree.settingsFile? (surroundings.hashes .formats) asked = some found := by
  rw [loadSettings_run, settle] at loads
  cases merges : mergeSaid (fun number path => surroundings.hashes (.source number path))
    (.table none []) (saySources surroundings tree (some asked)) with
  | error error =>
    rw [merges] at loads
    cases loads
  | ok values =>
    have source : sayExplicit surroundings tree (some asked) ∈
        saySources surroundings tree (some asked) := by
      simp [saySources, sayFiles]
    obtain ⟨entries, said⟩ := exists_ok_of_mergeSaid merges _ source
    cases found : tree.settingsFile? (surroundings.hashes .formats) asked with
    | some file => exact ⟨file, rfl⟩
    | none =>
      rw [sayExplicit, sayRequired, found] at said
      cases said

/-- What a file says depends on the tree by the path of the working directory only. -/
theorem sayBytes_of_isWritten (wrote : IsWritten tree written place) :
    sayBytes surroundings written = sayBytes surroundings tree := by
  funext path format bytes
  rw [sayBytes, sayBytes, wrote.here]

theorem sayOptional_of_settingsFile? {asked : String} (wrote : IsWritten tree written place)
    (same : written.settingsFile? (surroundings.hashes .formats) asked =
      tree.settingsFile? (surroundings.hashes .formats) asked) :
    sayOptional surroundings written asked = sayOptional surroundings tree asked := by
  rw [sayOptional, same, sayOptional]
  cases tree.settingsFile? (surroundings.hashes .formats) asked with
  | none => rfl
  | some file => rw [sayFound, sayFound, sayBytes_of_isWritten wrote]

theorem sayUser_of_isWritten (wrote : IsWritten tree written place)
    (held : written.node? place ≠ none)
    (user : ∀ path ∈ surroundings.userSettings, (written.find path).isOk = true →
      (tree.find path).isOk = true ∨
        written.settingsFile? (surroundings.hashes .formats) path = none)
    (apart : ∀ path ∈ lookups surroundings explicit tree, written.resolve path ≠ .ok place) :
    sayUser surroundings written = sayUser surroundings tree := by
  cases own : surroundings.userSettings with
  | none => simp only [sayUser, own]
  | some asked =>
    simp only [sayUser, own]
    cases there : (tree.find asked).isOk with
    | false =>
      -- The path may be there now, as a directory on the way to the place of the write.
      cases now : (written.find asked).isOk with
      | false => rfl
      | true =>
        have nothing := (user asked own now).resolve_left (by simp [there])
        simp only [sayOptional, nothing, sayFound, Bool.false_eq_true, if_true, if_false]
    | true =>
      obtain ⟨place', leads, _⟩ := FileTree.isOk_find_iff.mp there
      have same := FileTree.settingsFile?_of_resolve wrote List.mem_cons_self leads
        fun path tried => apart path (mem_lookups_of_userSettings own there path tried)
      rw [wrote.isOk_find held there, sayOptional_of_settingsFile? wrote same]

/-- Settings are loaded as before after a write, if no path that is looked at leads to the place of
the write and the user has settings only if they had some before. -/
theorem loadSettings_of_isWritten {settings : Settings} (wrote : IsWritten tree written place)
    (held : written.node? place ≠ none) (wellFormed : tree.IsWellFormed)
    (user : ∀ path ∈ surroundings.userSettings, (written.find path).isOk = true →
      (tree.find path).isOk = true ∨
        written.settingsFile? (surroundings.hashes .formats) path = none)
    (apart : ∀ path ∈ lookups surroundings explicit tree, written.resolve path ≠ .ok place)
    (loads : ((loadSettings surroundings explicit : StateM FileTree _) tree).1 = .ok settings) :
    ((loadSettings surroundings explicit : StateM FileTree _) written).1 = .ok settings := by
  have noUp : ∀ asked ∈ commonFiles, ∀ path ∈ settingsPaths (surroundings.hashes .formats) asked,
      ".." ∉ Path.steps path := by
    have plain : ∀ asked ∈ commonFiles, ".." ∉ Path.steps asked ∧
        ∀ file ∈ SettingsFormat.extensions,
          ".." ∉ Path.steps (Path.normal asked ++ "." ++ file.1) := by
      decide +kernel
    intro asked common path member
    rcases FileTree.mem_settingsPaths_iff.mp member with rfl | ⟨_, file, known, rfl⟩
    · exact (plain path common).1
    · exact (plain asked common).2 file known
  have common : commonFiles.map (sayOptional surroundings written) =
      commonFiles.map (sayOptional surroundings tree) := by
    refine List.map_congr_left fun asked member => sayOptional_of_settingsFile? wrote ?_
    exact FileTree.settingsFile?_of_noUp wrote wellFormed (noUp asked member) fun path tried =>
      apart path (mem_lookups_of_mem_commonFiles member path tried)
  have asked :
      sayExplicit surroundings written explicit = sayExplicit surroundings tree explicit := by
    cases explicit with
    | none => rfl
    | some asked =>
      obtain ⟨⟨path, content⟩, found⟩ := exists_settingsFile?_of_loadSettings loads
      obtain ⟨place', leads, _⟩ := FileTree.read_eq_ok_iff.mp (read_of_settingsFile? tree found)
      have same := FileTree.settingsFile?_of_resolve wrote (FileTree.mem_of_settingsFile? found)
        leads fun path tried => apart path (mem_lookups_of_explicit path tried)
      rw [sayExplicit, sayExplicit, sayRequired, sayRequired, same, wrote.here,
        sayBytes_of_isWritten wrote]
  rw [loadSettings_run] at loads ⊢
  rw [saySources, sayFiles, common, asked, sayUser_of_isWritten wrote held user apart]
  exact loads

end

end SchemaInterfaces
