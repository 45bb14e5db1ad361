import Mathlib.Data.List.Induction
import SchemaInterfaces.Proofs.Files.Resolution

/-!
# What a write leaves alone

A write puts a file at one place and may make directories for it; every other file is as it was
(`IsWritten`). What a path reads then depends on whether it leads to that place, and, where it leads
elsewhere, on whether its directory was there before.
-/
namespace SchemaInterfaces.FileTree

open SchemaInterfaces.Path (isStep)

variable {tree written : FileTree} {place : Place} {content : ByteArray} {path : String}

/-! ### One file -/

/-- The directories that are entered depend on nothing but the directories of the tree. -/
theorem enter?_congr {here : Place} {steps : List String}
    (same : ∀ p, written.node? p = some .directory ↔ tree.node? p = some .directory) :
    written.enter? here steps = tree.enter? here steps :=
  Option.ext fun _ =>
    ⟨enter?_of_directories fun p => (same p).mp, enter?_of_directories fun p => (same p).mpr⟩

theorem start_store (path : String) : (tree.store place content).start path = tree.start path := by
  rw [start, start, here_store]

/-- Paths lead where they led before. -/
theorem resolve_store_iff (free : tree.node? place ≠ some .directory) {other : Place} :
    (tree.store place content).resolve path = .ok other ↔ tree.resolve path = .ok other :=
  ⟨resolve_of_directories ⟨here_store.symm, fun p => (directory_store_iff free p).mp⟩,
    resolve_of_directories (keepsDirectories_store _ free)⟩

/-- What is found after the write was found before, unless it is the new file. -/
theorem isOk_find_store_iff (free : tree.node? place ≠ some .directory) :
    ((tree.store place content).find path).isOk = true ↔
      tree.resolve path = .ok place ∨ (tree.find path).isOk = true := by
  obtain ⟨held, file⟩ := exists_file_store content free
  simp only [isOk_find_iff, resolve_store_iff free]
  constructor
  · rintro ⟨other, leads, there⟩
    by_cases same : other = place
    · exact .inl (same ▸ leads)
    · exact .inr ⟨other, leads, by rwa [node?_store_of_ne same] at there⟩
  · rintro (leads | ⟨other, leads, there⟩)
    · exact ⟨place, leads, by simp [file]⟩
    · refine ⟨other, leads, ?_⟩
      by_cases same : other = place
      · simp [same, file]
      · rwa [node?_store_of_ne same]

/-- A path that leads to the place reads the file there. -/
theorem file?_store_of_resolve (free : tree.node? place ≠ some .directory)
    (kept : place ≠ nullDevice) (leads : tree.resolve path = .ok place) :
    (tree.store place content).file? path = some content :=
  file?_eq_some_iff_read.mpr
    ⟨read_eq_ok_iff.mpr ⟨place, (resolve_store_iff free).mpr leads, node?_store_self _ free kept⟩,
      fun null => kept (Except.ok.inj (leads.symm.trans ((resolve_store_iff free).mp null)))⟩

/-- A path that leads elsewhere reads what it read before. -/
theorem file?_store_of_ne (free : tree.node? place ≠ some .directory)
    (elsewhere : tree.resolve path ≠ .ok place) :
    (tree.store place content).file? path = tree.file? path := by
  have entered (front : List String) :
      (tree.store place content).enter? (tree.start path) (front.filter isStep) =
        tree.enter? (tree.start path) (front.filter isStep) :=
    enter?_congr (directory_store_iff free)
  refine Option.ext fun held => ?_
  rw [file?_eq_some_iff, file?_eq_some_iff, start_store]
  simp only [entered]
  refine and_congr_right fun usable => exists_congr fun front => exists_congr fun name =>
    exists_congr fun dir => and_congr_right fun parts => and_congr_right fun isName =>
      and_congr_right fun enters => and_congr_right fun _ => ?_
  have differ : dir ++ [name] ≠ place := by
    rintro rfl
    exact elsewhere (resolve_name usable parts isName enters)
  rw [node?_store_of_ne differ]

/-- Putting a file where it is already changes nothing. -/
theorem setEntry_same {node : Node} {entries : List (Place × Node)}
    (held : entries.lookup place = some node) : setEntry place node entries = entries := by
  induction entries with
  | nil => cases held
  | cons entry rest ih =>
    obtain ⟨p, there⟩ := entry
    rw [List.lookup_cons] at held
    rw [setEntry]
    by_cases same : p = place
    · subst same
      rw [beq_self_eq_true] at held
      rw [if_pos rfl, Option.some.inj held]
    · rw [beq_eq_false_iff_ne.mpr (Ne.symm same)] at held
      rw [if_neg same, ih held]

theorem store_same (held : tree.node? place = some (.file content)) :
    tree.store place content = tree := by
  rw [store]
  split
  next => rfl
  next kept =>
    rw [node?] at held
    split at held
    next => cases held
    next => rw [set, setEntry_same held]

/-! ### New directories -/

/-- Some places that held nothing hold a directory, and all else is as it was. -/
structure AddsDirectories (tree grown : FileTree) : Prop where
  here : grown.here = tree.here
  nodes : ∀ p, grown.node? p = tree.node? p ∨
    tree.node? p = none ∧ grown.node? p = some .directory

namespace AddsDirectories

variable {grown further : FileTree}

theorem refl (tree : FileTree) : AddsDirectories tree tree := ⟨rfl, fun _ => .inl rfl⟩

theorem trans (first : AddsDirectories tree grown) (second : AddsDirectories grown further) :
    AddsDirectories tree further := by
  refine ⟨second.here.trans first.here, fun p => ?_⟩
  rcases second.nodes p with same | ⟨free, made⟩
  · rw [same]
    exact first.nodes p
  · rcases first.nodes p with same | ⟨_, made'⟩
    · exact .inr ⟨by rw [← same, free], made⟩
    · rw [made'] at free
      cases free

theorem keeps (adds : AddsDirectories tree grown) : KeepsDirectories tree grown := by
  refine ⟨adds.here, fun p directory => ?_⟩
  rcases adds.nodes p with same | ⟨free, _⟩
  · rw [same, directory]
  · rw [directory] at free
    cases free

theorem file_iff (adds : AddsDirectories tree grown) (p : Place) (content : ByteArray) :
    grown.node? p = some (.file content) ↔ tree.node? p = some (.file content) := by
  rcases adds.nodes p with same | ⟨free, made⟩
  · rw [same]
  · rw [free, made]
    simp

end AddsDirectories

theorem addsDirectories_of_makeDirectory {made : FileTree}
    (h : tree.makeDirectory path = .ok made) : AddsDirectories tree made := by
  unfold makeDirectory at h
  split at h
  next => cases h
  next place _ =>
    split at h
    next => cases h
    next free =>
      cases h
      refine ⟨rfl, fun p => ?_⟩
      by_cases same : p = place
      · subst same
        have empty : tree.node? p ≠ some .directory := by simp [free]
        have kept : p ≠ nullDevice := by
          rintro rfl
          rw [node?_nullDevice empty] at free
          cases free
        exact .inr ⟨free, node?_set_self empty kept⟩
      · exact .inl (node?_set_of_ne same)

theorem addsDirectories_makeSteps (tree : FileTree) (absolute : Bool) (steps : List String)
    (count : Nat) : AddsDirectories tree (tree.makeSteps absolute steps count).2 := by
  induction count with
  | zero => exact .refl tree
  | succ count ih =>
    rw [makeSteps]
    split
    next made => exact addsDirectories_of_makeDirectory made
    next =>
      split
      next above => rwa [above] at ih
      next above =>
        rw [above] at ih
        split
        next made => exact ih.trans (addsDirectories_of_makeDirectory made)
        next => exact ih
    next => exact .refl tree

/-! ### A file with its directories -/

/-- No directory is gone, and every file but the one at a place is as it was. -/
structure IsWritten (tree written : FileTree) (place : Place) : Prop
    extends KeepsDirectories tree written where
  files : ∀ p, p ≠ place → ∀ content,
    written.node? p = some (.file content) ↔ tree.node? p = some (.file content)

theorem isWritten_of_addsDirectories {grown : FileTree} (adds : AddsDirectories tree grown)
    (free : grown.node? place ≠ some .directory) :
    IsWritten tree (grown.store place content) place where
  here := here_store.trans adds.here
  kept _ directory := (directory_store_iff free _).mpr (adds.keeps.kept _ directory)
  files p differ held := by rw [node?_store_of_ne differ, adds.file_iff]

/-- What was there is there after the write. -/
theorem IsWritten.isOk_find (wrote : IsWritten tree written place)
    (held : written.node? place ≠ none) (there : (tree.find path).isOk = true) :
    (written.find path).isOk = true := by
  obtain ⟨other, leads, something⟩ := isOk_find_iff.mp there
  refine isOk_find_iff.mpr ⟨other, resolve_of_directories wrote.toKeepsDirectories leads, ?_⟩
  by_cases same : other = place
  · rwa [same]
  · cases node : tree.node? other with
    | none => exact absurd node something
    | some node' =>
      cases node' with
      | directory => simp [wrote.kept other node]
      | file content => simp [(wrote.files other same content).mpr node]

/-- A path whose directory was there reads what it read before, unless it leads to the place. -/
theorem file?_of_entered {dir : Place} (wrote : IsWritten tree written place)
    (enters : tree.enter? (tree.start path) (Path.steps path).dropLast = some dir)
    (elsewhere : written.resolve path ≠ .ok place) : written.file? path = tree.file? path := by
  have enters' := enter?_of_directories wrote.kept enters
  refine Option.ext fun held => ?_
  rw [file?_eq_some_iff, file?_eq_some_iff, wrote.start]
  refine and_congr_right fun usable => exists_congr fun front => exists_congr fun name => ?_
  refine exists_congr fun dir' => and_congr_right fun parts => and_congr_right fun isName => ?_
  rw [steps_of_parts isName parts, List.dropLast_concat] at enters enters'
  rw [enters, enters']
  refine and_congr_right fun same => and_congr_right fun _ => ?_
  cases same
  refine wrote.files _ ?_ held
  rintro rfl
  rw [← wrote.start] at enters'
  exact elsewhere (resolve_name usable parts isName enters')

/-- Everything that is there is in a directory. -/
def IsWellFormed (tree : FileTree) : Prop :=
  ∀ place node, tree.node? place = some node → tree.node? place.dropLast = some .directory

theorem isWellFormed_of_entries
    (parents : ∀ entry ∈ tree.entries, tree.node? entry.1.dropLast = some .directory) :
    tree.IsWellFormed := by
  intro place node held
  rw [node?] at held
  split at held
  next fixed =>
    rw [node?, if_pos]
    rcases fixed with above | rfl
    · have above := List.isPrefixOf_iff_prefix.mp above
      exact .inl (List.isPrefixOf_iff_prefix.mpr ((List.dropLast_prefix place).trans above))
    · exact .inl rfl
  next =>
    split at held
    next null => rw [node?, if_pos (.inr (by rw [null]))]
    next =>
      obtain ⟨front, behind, entries, _⟩ := List.lookup_eq_some_iff.mp held
      refine parents (place, node) ?_
      rw [entries]
      exact List.mem_append_right _ List.mem_cons_self

theorem IsWellFormed.isGround (wellFormed : tree.IsWellFormed) {dir : Place}
    (directory : tree.node? dir = some .directory) : tree.IsGround dir := by
  induction dir using List.reverseRecOn with
  | nil =>
    intro front isPrefix
    rw [List.prefix_nil.mp isPrefix, directory]
  | append_singleton dir name ih =>
    have above := wellFormed _ _ directory
    rw [List.dropLast_concat] at above
    exact (ih above).child directory

theorem eq_append_of_enter? {here dir : Place} {steps : List String} (noUp : ".." ∉ steps)
    (enters : tree.enter? here steps = some dir) : dir = here ++ steps := by
  fun_induction enter? tree here steps with
  | case1 here =>
    cases enters
    rw [List.append_nil]
  | case2 here rest ih => exact absurd List.mem_cons_self noUp
  | case3 => cases enters
  | case4 here step rest up short directory ih =>
    rw [ih (fun member => noUp (List.mem_cons_of_mem _ member)) enters, List.append_assoc,
      List.singleton_append]
  | case5 => cases enters

/-- A directory that is entered by names can be entered wherever it is there. -/
theorem enter?_of_isGround {here dir : Place} {steps : List String} (noUp : ".." ∉ steps)
    (enters : written.enter? here steps = some dir) (ground : tree.IsGround dir) :
    tree.enter? here steps = some dir := by
  fun_induction enter? written here steps with
  | case1 here => exact enters
  | case2 here rest ih => exact absurd List.mem_cons_self noUp
  | case3 => cases enters
  | case4 here step rest up short directory ih =>
    have names : ".." ∉ rest := fun member => noUp (List.mem_cons_of_mem _ member)
    have there := eq_append_of_enter? names enters
    have directory' : tree.node? (here ++ [step]) = some .directory :=
      ground _ (there ▸ List.prefix_append _ _)
    rw [enter?, if_neg up, if_neg short, directory']
    exact ih names enters
  | case5 => cases enters

/-- A path of names reads what it read before, unless it leads to the place: a directory that is new
holds no file but that one. -/
theorem file?_of_isWellFormed (wrote : IsWritten tree written place)
    (wellFormed : tree.IsWellFormed) (noUp : ".." ∉ Path.steps path)
    (elsewhere : written.resolve path ≠ .ok place) : written.file? path = tree.file? path := by
  cases enters : tree.enter? (tree.start path) (Path.steps path).dropLast with
  | some dir => exact file?_of_entered wrote enters elsewhere
  | none =>
    have before : tree.file? path = none := by
      refine Option.eq_none_iff_forall_ne_some.mpr fun content held => ?_
      obtain ⟨_, front, name, dir, parts, isName, enters', _⟩ := file?_eq_some_iff.mp held
      rw [steps_of_parts isName parts, List.dropLast_concat, enters'] at enters
      cases enters
    rw [before]
    refine Option.eq_none_iff_forall_ne_some.mpr fun content held => ?_
    obtain ⟨usable, front, name, dir, parts, isName, enters', _, there⟩ := file?_eq_some_iff.mp held
    rw [steps_of_parts isName parts] at enters noUp
    rw [List.dropLast_concat] at enters
    have differ : dir ++ [name] ≠ place := by
      rintro rfl
      exact elsewhere (resolve_name usable parts isName enters')
    have directory := wellFormed _ _ ((wrote.files _ differ content).mp there)
    rw [List.dropLast_concat] at directory
    have ground := wellFormed.isGround directory
    rw [wrote.start] at enters'
    rw [enter?_of_isGround (fun member => noUp (List.mem_append_left _ member)) enters' ground]
      at enters
    cases enters

end SchemaInterfaces.FileTree
