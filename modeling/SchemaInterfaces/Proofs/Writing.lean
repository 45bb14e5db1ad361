import SchemaInterfaces.Proofs.Drift
import SchemaInterfaces.Proofs.Files.Growth

/-!
# Writing generated code

Generated code is written to one place, with the directories above it that are missing
(`isWritten_of_writeGenerated`). Unless that is the null device, it can be read there
(`read_writeGenerated`). Written once more, it changes nothing (`writeGenerated_again`).
-/
namespace SchemaInterfaces

open FileTree (AddsDirectories IsWritten)

variable {path code : String} {tree written : FileTree} {place : Place} {count : Nat}

theorem makeParent_run (path : String) (tree : FileTree) :
    (makeParent path : StateM FileTree _) tree =
      if Path.parent path = "" ∨ (tree.find (Path.parent path)).isOk = true then (.ok (), tree)
      else tree.makeDirectories (Path.parent path) := by
  rw [makeParent]
  by_cases start : Path.parent path = ""
  · rw [if_pos start, if_pos (.inl start), FileTree.run_pure]
  · rw [if_neg start, FileTree.run_bind]
    change (if (tree.find (Path.parent path)).isOk = true then pure (.ok ())
      else FileAccess.makeDirectories (Path.parent path) : StateM FileTree _) tree = _
    by_cases there : (tree.find (Path.parent path)).isOk = true
    · rw [if_pos there, if_pos (.inr there), FileTree.run_pure]
    · rw [if_neg there, if_neg (not_or.mpr ⟨start, there⟩)]
      rfl

theorem addsDirectories_makeParent (path : String) (tree : FileTree) :
    AddsDirectories tree ((makeParent path : StateM FileTree _) tree).2 := by
  rw [makeParent_run]
  split
  · exact .refl tree
  · exact FileTree.addsDirectories_makeSteps tree _ _ _

/-- The directory of a path that leads to a file is there already. -/
theorem makeParent_of_resolve (leads : tree.resolve path = .ok place)
    (file : tree.node? place ≠ some .directory) :
    (makeParent path : StateM FileTree _) tree = (.ok (), tree) := by
  rw [makeParent_run]
  by_cases start : Path.parent path = ""
  · rw [if_pos (.inl start)]
  · rw [if_pos (.inr (by rw [FileTree.find_parent leads file start]; rfl))]

/-- Generated code is written where its path leads, and no other file is touched. -/
theorem isWritten_of_writeGenerated
    (writes : (writeGenerated path code : StateM FileTree _) tree = (.ok count, written)) :
    ∃ place, written.resolve path = .ok place ∧
      (place ≠ FileTree.nullDevice → written.node? place = some (.file code.toUTF8)) ∧
      (∃ content, written.node? place = some (.file content)) ∧
      IsWritten tree written place := by
  have adds := addsDirectories_makeParent path tree
  rw [writeGenerated, FileTree.run_bind] at writes
  generalize (makeParent path : StateM FileTree _) tree = parent at writes adds
  obtain ⟨made, grown⟩ := parent
  cases made with
  | error error => cases writes
  | ok _ =>
    simp only [FileTree.run_bind, FileTree.writeText_run] at writes
    cases wrote : grown.write path code.toUTF8 with
    | error error =>
      rw [wrote] at writes
      cases writes
    | ok after =>
      rw [wrote] at writes
      cases writes
      obtain ⟨place, leads, free, rfl⟩ := FileTree.write_eq_ok wrote
      exact ⟨place, (FileTree.resolve_store_iff free).mpr leads, FileTree.node?_store_self _ free,
        FileTree.exists_file_store _ free, FileTree.isWritten_of_addsDirectories adds free⟩

/-- Generated code that was written is what the file holds afterwards. -/
theorem read_writeGenerated
    (writes : (writeGenerated path code : StateM FileTree _) tree = (.ok count, written))
    (kept : written.resolve path ≠ .ok FileTree.nullDevice) :
    written.read path = .ok code.toUTF8 := by
  obtain ⟨place, leads, held, _⟩ := isWritten_of_writeGenerated writes
  exact FileTree.read_eq_ok_iff.mpr ⟨place, leads, held (by rintro rfl; exact kept leads)⟩

/-- Where generated code was written, it is written once more without a change: it is there
already, or it is lost again. -/
theorem writeGenerated_again (leads : tree.resolve path = .ok place)
    (file : tree.node? place ≠ some .directory)
    (held : place ≠ FileTree.nullDevice → tree.node? place = some (.file code.toUTF8)) :
    (writeGenerated path code : StateM FileTree _) tree = (.ok code.utf8ByteSize, tree) := by
  have same : tree.store place code.toUTF8 = tree := by
    by_cases null : place = FileTree.nullDevice
    · rw [FileTree.store, if_pos null]
    · exact FileTree.store_same (held null)
  have wrote : tree.write path code.toUTF8 = .ok tree := by
    rw [FileTree.write, leads]
    cases node : tree.node? place with
    | none => simp only [same]
    | some node' =>
      cases node' with
      | directory => exact absurd node file
      | file content => simp only [same]
  rw [writeGenerated, FileTree.run_bind, makeParent_of_resolve leads file]
  simp only [FileTree.run_bind, FileTree.writeText_run, wrote]
  rfl

end SchemaInterfaces
