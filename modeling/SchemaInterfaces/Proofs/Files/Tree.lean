import SchemaInterfaces.Files.Tree

/-!
# Reading what was written

A write changes what one place holds, and that place was not a directory. Every directory on the way
to it is still there afterwards, so the path leads to the same place again and the file there has
the new content, unless it is the null device (`read_write`). The text of a file is read from its
bytes, which are the only bytes of that text.
-/
namespace SchemaInterfaces.FileTree

variable {tree written : FileTree} {place : Place} {node : Node} {content : ByteArray}
variable {path : String}

/-! ### What a place holds after a write -/

theorem lookup_setEntry (place : Place) (node : Node) (entries : List (Place × Node)) (p : Place) :
    (setEntry place node entries).lookup p = if p = place then some node else entries.lookup p := by
  induction entries with
  | nil =>
    rw [setEntry, List.lookup_cons]
    by_cases h : p = place <;> simp [h, beq_eq_false_iff_ne.mpr]
  | cons entry rest ih =>
    obtain ⟨q, held⟩ := entry
    rw [setEntry]
    split
    next same =>
      rw [List.lookup_cons, List.lookup_cons, same]
      by_cases h : p = place <;> simp [h, beq_eq_false_iff_ne.mpr]
    next differ =>
      rw [List.lookup_cons, List.lookup_cons, ih]
      by_cases h : p = q <;> simp [h, differ, beq_eq_false_iff_ne.mpr]

theorem node?_set_of_ne {p : Place} (h : p ≠ place) :
    (tree.set place node).node? p = tree.node? p := by
  simp [node?, set, lookup_setEntry, h]

/-- A place that is no directory is not one of those that are always there. -/
theorem node?_set_self (free : tree.node? place ≠ some .directory) (kept : place ≠ nullDevice) :
    (tree.set place node).node? place = some node := by
  have unfixed : ¬ (place.isPrefixOf tree.here ∨ place = nullDevice.dropLast) := by
    intro fixed
    exact free (by rw [node?, if_pos fixed])
  rw [node?, set, if_neg unfixed, if_neg kept, lookup_setEntry, if_pos rfl]

/-- The null device is an empty file, unless the working directory makes it a directory. -/
theorem node?_nullDevice (free : tree.node? nullDevice ≠ some .directory) :
    tree.node? nullDevice = some (.file ByteArray.empty) := by
  rw [node?] at free ⊢
  split at free
  next => exact absurd rfl free
  next fixed => rw [if_neg fixed, if_pos rfl]

theorem node?_store_of_ne {p : Place} (h : p ≠ place) :
    (tree.store place content).node? p = tree.node? p := by
  rw [store]
  split
  · rfl
  · exact node?_set_of_ne h

theorem node?_store_self (content : ByteArray) (free : tree.node? place ≠ some .directory)
    (kept : place ≠ nullDevice) :
    (tree.store place content).node? place = some (.file content) := by
  rw [store, if_neg kept, node?_set_self free kept]

/-- What is stored somewhere is a file, there as on the null device. -/
theorem exists_file_store (content : ByteArray) (free : tree.node? place ≠ some .directory) :
    ∃ held, (tree.store place content).node? place = some (.file held) := by
  by_cases null : place = nullDevice
  · subst null
    exact ⟨_, by rw [store, if_pos rfl, node?_nullDevice free]⟩
  · exact ⟨content, node?_store_self content free null⟩

theorem here_store : (tree.store place content).here = tree.here := by
  rw [store]
  split <;> rfl

/-! ### The same place again -/

/-- A path that leads somewhere still leads there when no directory is gone. -/
theorem follow_of_directories {parts : List String} {here : Place}
    (kept : ∀ p, tree.node? p = some .directory → written.node? p = some .directory)
    (h : tree.follow here parts = .ok place) : written.follow here parts = .ok place := by
  fun_induction follow tree here parts with
  | case1 here => exact h
  | case2 here part rest dot ih => rw [follow, if_pos dot, ih h]
  | case3 here rest dot ih => rw [follow, if_neg dot, if_pos rfl, ih h]
  | case4 => cases h
  | case5 here part dot above short =>
    rw [follow, if_neg dot, if_neg above, if_neg short, if_pos rfl, h]
  | case6 here part rest dot above short more directory ih =>
    rw [follow, if_neg dot, if_neg above, if_neg short, if_neg more, kept _ directory]
    exact ih h
  | case7 => cases h
  | case8 => cases h

/-- The working directory is the same, and no directory is gone. -/
structure KeepsDirectories (tree written : FileTree) : Prop where
  here : written.here = tree.here
  kept : ∀ p, tree.node? p = some .directory → written.node? p = some .directory

theorem KeepsDirectories.start (keeps : tree.KeepsDirectories written) (path : String) :
    written.start path = tree.start path := by
  rw [FileTree.start, FileTree.start, keeps.here]

theorem directory_store_iff (free : tree.node? place ≠ some .directory) (p : Place) :
    (tree.store place content).node? p = some .directory ↔ tree.node? p = some .directory := by
  by_cases same : p = place
  · subst same
    obtain ⟨held, file⟩ := exists_file_store content free
    simp [file, free]
  · rw [node?_store_of_ne same]

theorem keepsDirectories_store (content : ByteArray)
    (free : tree.node? place ≠ some .directory) :
    tree.KeepsDirectories (tree.store place content) where
  here := here_store
  kept p := (directory_store_iff free p).mpr

theorem resolve_of_directories (keeps : tree.KeepsDirectories written)
    (h : tree.resolve path = .ok place) : written.resolve path = .ok place := by
  unfold resolve at h ⊢
  split at h
  next => cases h
  next noNul =>
    split at h
    next => cases h
    next nonempty =>
      split at h
      next => cases h
      next short =>
        rw [if_neg noNul, if_neg nonempty, if_neg short, keeps.start]
        exact follow_of_directories keeps.kept h

/-- A write that succeeds has put the content where the path leads, and no directory was there. -/
theorem write_eq_ok (h : tree.write path content = .ok written) :
    ∃ place, tree.resolve path = .ok place ∧ tree.node? place ≠ some .directory ∧
      written = tree.store place content := by
  unfold write at h
  split at h
  next => split at h <;> cases h
  next => cases h
  next place resolved =>
    split at h
    next => cases h
    next free =>
      cases h
      exact ⟨place, resolved, free, rfl⟩

/-- A file that was written is read back. -/
theorem read_write (h : tree.write path content = .ok written)
    (kept : tree.resolve path ≠ .ok nullDevice) : written.read path = .ok content := by
  obtain ⟨place, resolved, free, rfl⟩ := write_eq_ok h
  have again := resolve_of_directories (keepsDirectories_store content free) resolved
  have held := node?_store_self content free (by rintro rfl; exact kept resolved)
  simp only [read, find, again, held]

/-! ### Programs over a file tree -/

section

variable {α β : Type}

theorem run_bind (first : StateM FileTree α) (next : α → StateM FileTree β) (tree : FileTree) :
    (first >>= next) tree = next (first tree).1 (first tree).2 := rfl

theorem run_pure (value : α) (tree : FileTree) :
    (pure value : StateM FileTree α) tree = (value, tree) := rfl

theorem directory_run (tree : FileTree) :
    (FileAccess.directory : StateM FileTree _) tree = (Path.join true tree.here, tree) := rfl

theorem readBytes_run (path : String) (tree : FileTree) :
    (FileAccess.readBytes path : StateM FileTree _) tree = (tree.read path, tree) := rfl

theorem writeText_run (path text : String) (tree : FileTree) :
    (FileAccess.writeText path text : StateM FileTree _) tree =
      match tree.write path text.toUTF8 with
      | .ok written => (.ok (), written)
      | .error error => (.error error, tree) := rfl

/-- A program that leaves every tree as it is. -/
def OnlyReads (program : StateM FileTree α) : Prop :=
  ∀ tree, (program tree).2 = tree

namespace OnlyReads

protected theorem pure (value : α) : OnlyReads (pure value) := fun _ => rfl

protected theorem bind {first : StateM FileTree α} {next : α → StateM FileTree β}
    (h : OnlyReads first) (h' : ∀ value, OnlyReads (next value)) : OnlyReads (first >>= next) := by
  intro tree
  rw [run_bind, h' _ _, h tree]

theorem directory : OnlyReads FileAccess.directory := fun _ => rfl

theorem readBytes (path : String) : OnlyReads (FileAccess.readBytes path) := fun _ => rfl

theorem isPresent (path : String) : OnlyReads (FileAccess.isPresent path) := fun _ => rfl

theorem isFile (path : String) : OnlyReads (FileAccess.isFile path) := fun _ => rfl

/-- A program that only reads ends in the tree that it started in. -/
theorem run {program : StateM FileTree α} (h : OnlyReads program) (tree : FileTree) :
    ∃ value, program tree = (value, tree) :=
  ⟨(program tree).1, Prod.ext rfl (h tree)⟩

end OnlyReads

end

/-! ### The text of a file -/

theorem fromUTF8?_eq_some {bytes : ByteArray} {text : String} :
    String.fromUTF8? bytes = some text ↔ bytes = text.toUTF8 := by
  unfold String.fromUTF8?
  constructor
  · intro h
    split at h
    next => cases h; rfl
    next => cases h
  · rintro rfl
    exact dif_pos text.isValidUTF8

/-- The text of a file, which has to be UTF-8. -/
def text (tree : FileTree) (path : String) : Except FileError String :=
  match tree.read path with
  | .error error => .error error
  | .ok bytes =>
    match String.fromUTF8? bytes with
    | some text => .ok text
    | none => .error .notText

theorem text_eq_ok {existing : String} :
    tree.text path = .ok existing ↔ tree.read path = .ok existing.toUTF8 := by
  unfold text
  cases tree.read path with
  | error error => simp
  | ok bytes =>
    rw [Except.ok.injEq, ← fromUTF8?_eq_some]
    cases h : String.fromUTF8? bytes <;> simp [h]

/-- What keeps a file from being read keeps its text from being read. -/
theorem text_eq_error {error : FileError} (h : tree.read path = .error error) :
    tree.text path = .error error := by
  rw [text, h]

theorem readText_run (path : String) (tree : FileTree) :
    (FileAccess.readText path : StateM FileTree _) tree = (tree.text path, tree) := by
  unfold text FileAccess.readText
  rw [run_bind, readBytes_run]
  cases tree.read path with
  | error error => rfl
  | ok bytes => cases h : String.fromUTF8? bytes <;> simp [h] <;> rfl

theorem OnlyReads.readText (path : String) : OnlyReads (FileAccess.readText path) := fun tree => by
  rw [readText_run]

end SchemaInterfaces.FileTree
