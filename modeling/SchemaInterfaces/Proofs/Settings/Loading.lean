import SchemaInterfaces.Proofs.Files.Tree
import SchemaInterfaces.Settings.Loading

/-!
# Loading settings only reads

Settings are looked for, read and merged, and no source is changed by it. One lemma for each step,
up to the whole of loading (`onlyReads_loadSettings`).
-/
namespace SchemaInterfaces

open FileTree (OnlyReads)

variable (surroundings : Surroundings)

theorem onlyReads_firstFile (files : List (String × SettingsFormat)) :
    OnlyReads (firstFile files) := by
  induction files with
  | nil => exact .pure _
  | cons file rest ih =>
    refine .bind (.isFile _) fun isFile => ?_
    split
    · exact .pure _
    · exact ih

theorem onlyReads_findSettings (hash : String → Nat) (path : String) :
    OnlyReads (findSettings hash path) := by
  refine .bind (.isFile _) fun isFile => ?_
  split
  · split <;> exact .pure _
  · split
    · exact .pure _
    · exact onlyReads_firstFile _

theorem onlyReads_readSettings (path : String) (format : SettingsFormat) :
    OnlyReads (readSettings surroundings path format) := by
  refine .bind (.readBytes _) fun bytes => ?_
  split
  · exact .pure _
  · refine .bind .directory fun directory => ?_
    dsimp only
    split <;> exact .pure _

theorem onlyReads_readOptional (path : String) : OnlyReads (readOptional surroundings path) := by
  refine .bind (onlyReads_findSettings _ _) fun file => ?_
  split
  · refine .bind (onlyReads_readSettings surroundings _ _) fun result => ?_
    split <;> exact .pure _
  · exact .pure _

theorem onlyReads_readRequired (path : String) : OnlyReads (readRequired surroundings path) := by
  refine .bind (onlyReads_findSettings _ _) fun file => ?_
  split
  · exact onlyReads_readSettings surroundings _ _
  · exact .pure _
  · exact .bind .directory fun directory => .pure _

theorem onlyReads_readUserSettings : OnlyReads (readUserSettings surroundings) := by
  unfold readUserSettings
  split
  · exact .pure _
  · refine .bind (.isPresent _) fun isPresent => ?_
    split
    · exact onlyReads_readOptional surroundings _
    · exact .pure _

theorem onlyReads_readExplicit (explicit : Option String) :
    OnlyReads (readExplicit surroundings explicit) := by
  cases explicit with
  | none => exact .pure _
  | some path => exact onlyReads_readRequired surroundings path

theorem onlyReads_mergeSources (hashes : Nat → List String → String → Nat) (values : Setting)
    (sources : List (StateM FileTree (Except SettingsError (List (String × Setting)))))
    (reads : ∀ source ∈ sources, OnlyReads source) :
    OnlyReads (mergeSources hashes values sources) := by
  induction sources generalizing hashes values with
  | nil => exact .pure _
  | cons source rest ih =>
    obtain ⟨first, others⟩ := List.forall_mem_cons.mp reads
    refine .bind first fun entries => ?_
    split
    · exact .pure _
    · exact ih _ _ others

theorem onlyReads_loadSettings (explicit : Option String) :
    OnlyReads (loadSettings surroundings explicit) := by
  refine .bind (onlyReads_mergeSources _ _ _ fun source member => ?_) fun values => ?_
  · obtain common | rfl | rfl | rfl : source ∈ commonFiles.map (readOptional surroundings) ∨
        source = readUserSettings surroundings ∨ source = readExplicit surroundings explicit ∨
        source = pure (.ok (Variable.entries surroundings.assignments)) := by
      simpa using member
    · obtain ⟨path, _, rfl⟩ := List.mem_map.mp common
      exact onlyReads_readOptional surroundings path
    · exact onlyReads_readUserSettings surroundings
    · exact onlyReads_readExplicit surroundings explicit
    · exact .pure _
  · split <;> exact .pure _

end SchemaInterfaces
