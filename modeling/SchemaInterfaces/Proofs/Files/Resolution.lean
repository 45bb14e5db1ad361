import SchemaInterfaces.Proofs.Files.Path
import SchemaInterfaces.Proofs.Files.Tree

/-!
# Where paths lead

A path that leads to anything enters a directory with all steps but its last. Where it leads to no
directory, its last part is a name, and the place is that name in the directory
(`exists_name_of_follow`). So paths that differ in their last name only lead to places side by side
(`follow_name`), and the directory of a path that leads to a file is there (`find_parent`).
-/
namespace SchemaInterfaces.FileTree

open SchemaInterfaces.Path (isStep)

variable {tree written : FileTree} {here place dir : Place} {path : String}

/-- Enters directories step by step. -/
def enter? (tree : FileTree) (here : Place) : List String → Option Place
  | [] => some here
  | step :: rest =>
    if step = ".." then enter? tree here.dropLast rest
    else if maxName < step.utf8ByteSize then none
    else
      match tree.node? (here ++ [step]) with
      | some .directory => enter? tree (here ++ [step]) rest
      | _ => none

/-- The part can be the name of a file. -/
structure IsName (part : String) : Prop where
  isStep : isStep part = true
  notUp : part ≠ ".."
  short : ¬ maxName < part.utf8ByteSize

/-- A directory with all directories above it. -/
def IsGround (tree : FileTree) (here : Place) : Prop :=
  ∀ front, front <+: here → tree.node? front = some .directory

/-- A path starts in a directory. -/
theorem isGround_start (tree : FileTree) (path : String) : tree.IsGround (tree.start path) := by
  intro front isPrefix
  have above : front <+: tree.here := by
    rw [start] at isPrefix
    split at isPrefix
    next => exact isPrefix.trans List.nil_prefix
    next => exact isPrefix
  rw [node?, if_pos (.inl (List.isPrefixOf_iff_prefix.mpr above))]

theorem IsGround.dropLast (ground : tree.IsGround here) : tree.IsGround here.dropLast :=
  fun front isPrefix => ground front (isPrefix.trans (List.dropLast_prefix here))

theorem IsGround.child {name : String} (ground : tree.IsGround here)
    (directory : tree.node? (here ++ [name]) = some .directory) :
    tree.IsGround (here ++ [name]) := by
  intro front isPrefix
  rcases List.prefix_concat_iff.mp isPrefix with rfl | above
  · exact directory
  · exact ground front above

/-- What is entered is a directory below directories. -/
theorem isGround_of_enter? {steps : List String} (ground : tree.IsGround here)
    (h : tree.enter? here steps = some dir) : tree.IsGround dir := by
  fun_induction enter? tree here steps with
  | case1 here =>
    cases h
    exact ground
  | case2 here rest ih => exact ih ground.dropLast h
  | case3 => cases h
  | case4 here step rest up short directory ih => exact ih (ground.child directory) h
  | case5 => cases h

/-- Directories that are entered can still be entered when no directory is gone. -/
theorem enter?_of_directories {steps : List String}
    (kept : ∀ p, tree.node? p = some .directory → written.node? p = some .directory)
    (h : tree.enter? here steps = some dir) : written.enter? here steps = some dir := by
  fun_induction enter? tree here steps with
  | case1 here => exact h
  | case2 here rest ih => rw [enter?, if_pos rfl, ih h]
  | case3 => cases h
  | case4 here step rest up short directory ih =>
    rw [enter?, if_neg up, if_neg short, kept _ directory]
    exact ih h
  | case5 => cases h

theorem isStep_eq_true_iff {part : String} : isStep part = true ↔ ¬ (part = "" ∨ part = ".") := by
  simp [isStep]

/-- Entering directories is following a path to a directory, however it is written. -/
theorem follow_of_enter? {parts : List String}
    (h : tree.enter? here (parts.filter isStep) = some dir) : tree.follow here parts = .ok dir := by
  induction parts generalizing here with
  | nil =>
    cases h
    rfl
  | cons part rest ih =>
    by_cases dot : part = "" ∨ part = "."
    · rw [List.filter_cons_of_neg (by simp [isStep_eq_true_iff, dot])] at h
      rw [follow, if_pos dot, ih h]
    · rw [List.filter_cons_of_pos (isStep_eq_true_iff.mpr dot), enter?] at h
      rw [follow, if_neg dot]
      split at h
      next up => rw [if_pos up, ih h]
      next up =>
        rw [if_neg up]
        split at h
        next => cases h
        next short =>
          rw [if_neg short]
          split at h
          next directory =>
            by_cases last : rest = []
            · subst last
              rw [if_pos rfl]
              cases h
              rfl
            · rw [if_neg last, directory]
              exact ih h
          next => cases h

/-- A name in a directory that is entered. -/
theorem follow_name {front : List String} {name : String} (isName : IsName name)
    (h : tree.enter? here (front.filter isStep) = some dir) :
    tree.follow here (front ++ [name]) = .ok (dir ++ [name]) := by
  have proper := isStep_eq_true_iff.mp isName.isStep
  induction front generalizing here with
  | nil =>
    cases h
    rw [List.nil_append, follow, if_neg proper, if_neg isName.notUp, if_neg isName.short,
      if_pos rfl]
  | cons part front ih =>
    rw [List.cons_append, follow]
    by_cases dot : part = "" ∨ part = "."
    · rw [List.filter_cons_of_neg (by simp [isStep_eq_true_iff, dot])] at h
      rw [if_pos dot, ih h]
    · rw [List.filter_cons_of_pos (isStep_eq_true_iff.mpr dot), enter?] at h
      rw [if_neg dot]
      split at h
      next up => rw [if_pos up, ih h]
      next up =>
        rw [if_neg up]
        split at h
        next => cases h
        next short =>
          rw [if_neg short, if_neg (by simp)]
          split at h
          next directory =>
            rw [directory]
            exact ih h
          next => cases h

/-- What a path leads to, if it is no directory, is a name in a directory that is entered. -/
theorem exists_name_of_follow {parts : List String} (ground : tree.IsGround here)
    (h : tree.follow here parts = .ok place) (file : tree.node? place ≠ some .directory) :
    ∃ front name dir, parts = front ++ [name] ∧ IsName name ∧
      tree.enter? here (front.filter isStep) = some dir ∧ place = dir ++ [name] := by
  fun_induction follow tree here parts with
  | case1 here =>
    cases h
    exact absurd (ground _ (List.prefix_refl _)) file
  | case2 here part rest dot ih =>
    obtain ⟨front, name, dir, rfl, isName, entered, rfl⟩ := ih ground h
    refine ⟨part :: front, name, dir, rfl, isName, ?_, rfl⟩
    rwa [List.filter_cons_of_neg (by simp [isStep_eq_true_iff, dot])]
  | case3 here rest dot ih =>
    obtain ⟨front, name, dir, rfl, isName, entered, rfl⟩ := ih ground.dropLast h
    refine ⟨".." :: front, name, dir, rfl, isName, ?_, rfl⟩
    rwa [List.filter_cons_of_pos (isStep_eq_true_iff.mpr dot), enter?, if_pos rfl]
  | case4 => cases h
  | case5 here part dot up short =>
    cases h
    exact ⟨[], part, here, rfl, ⟨isStep_eq_true_iff.mpr dot, up, short⟩, rfl, rfl⟩
  | case6 here part rest dot up short more directory ih =>
    obtain ⟨front, name, dir, rfl, isName, entered, rfl⟩ := ih (ground.child directory) h
    refine ⟨part :: front, name, dir, rfl, isName, ?_, rfl⟩
    rw [List.filter_cons_of_pos (isStep_eq_true_iff.mpr dot), enter?, if_neg up, if_neg short,
      directory]
    exact entered
  | case7 => cases h
  | case8 => cases h

/-- A path that leads anywhere enters the directory of its last step. -/
theorem exists_enter?_of_follow {parts : List String} (h : tree.follow here parts = .ok place) :
    ∃ dir, tree.enter? here (parts.filter isStep).dropLast = some dir := by
  fun_induction follow tree here parts with
  | case1 here => exact ⟨here, rfl⟩
  | case2 here part rest dot ih =>
    rw [List.filter_cons_of_neg (by simp [isStep_eq_true_iff, dot])]
    exact ih h
  | case3 here rest dot ih =>
    rw [List.filter_cons_of_pos (isStep_eq_true_iff.mpr dot)]
    cases steps : rest.filter isStep with
    | nil => exact ⟨here, rfl⟩
    | cons step more =>
      rw [steps] at ih
      rw [List.dropLast_cons_cons, enter?, if_pos rfl]
      exact ih h
  | case4 => cases h
  | case5 here part dot up short =>
    rw [List.filter_cons_of_pos (isStep_eq_true_iff.mpr dot)]
    exact ⟨here, rfl⟩
  | case6 here part rest dot up short more directory ih =>
    rw [List.filter_cons_of_pos (isStep_eq_true_iff.mpr dot)]
    cases steps : rest.filter isStep with
    | nil => exact ⟨here, rfl⟩
    | cons step further =>
      rw [steps] at ih
      rw [List.dropLast_cons_cons, enter?, if_neg up, if_neg short, directory]
      exact ih h
  | case7 => cases h
  | case8 => cases h

/-! ### Files and directories by path -/

/-- A path that can lead anywhere. -/
structure IsUsable (path : String) : Prop where
  noNul : '\x00' ∉ path.toList
  nonempty : path ≠ ""
  short : ¬ maxPath < path.utf8ByteSize

theorem resolve_eq_ok_iff :
    tree.resolve path = .ok place ↔
      IsUsable path ∧ tree.follow (tree.start path) (Path.parts path) = .ok place := by
  constructor
  · intro h
    rw [resolve] at h
    split at h
    next => cases h
    next noNul =>
      split at h
      next => cases h
      next nonempty =>
        split at h
        next => cases h
        next short => exact ⟨⟨by simpa using noNul, nonempty, short⟩, h⟩
  · rintro ⟨usable, h⟩
    rw [resolve, if_neg (by simpa using usable.noNul), if_neg usable.nonempty,
      if_neg usable.short, h]

/-- A path of a name in a directory that is entered leads there. -/
theorem resolve_name {front : List String} {name : String} (usable : IsUsable path)
    (parts : Path.parts path = front ++ [name]) (isName : IsName name)
    (enters : tree.enter? (tree.start path) (front.filter isStep) = some dir) :
    tree.resolve path = .ok (dir ++ [name]) := by
  refine resolve_eq_ok_iff.mpr ⟨usable, ?_⟩
  rw [parts, follow_name isName enters]

/-- The directory of a path that leads anywhere can be entered. -/
theorem exists_enter?_of_resolve (leads : tree.resolve path = .ok place) :
    ∃ dir, tree.enter? (tree.start path) (Path.steps path).dropLast = some dir :=
  exists_enter?_of_follow (resolve_eq_ok_iff.mp leads).2

/-- Two paths lead to one place. -/
def SamePlace (tree : FileTree) (path other : String) : Prop :=
  ∃ place, tree.resolve path = .ok place ∧ tree.resolve other = .ok place

theorem samePlace_iff {other : String} :
    tree.SamePlace path other ↔
      ∃ place ∈ (tree.resolve path).toOption, place ∈ (tree.resolve other).toOption := by
  rw [SamePlace]
  cases tree.resolve path <;> cases tree.resolve other <;> simp [Except.toOption]

instance (path other : String) : Decidable (tree.SamePlace path other) :=
  decidable_of_iff _ samePlace_iff.symm

/-- A path finds something where it leads to a place that holds something. -/
theorem isOk_find_iff :
    (tree.find path).isOk = true ↔
      ∃ place, tree.resolve path = .ok place ∧ tree.node? place ≠ none := by
  rw [find]
  cases tree.resolve path with
  | error error => simp [Except.isOk, Except.toBool]
  | ok place => cases held : tree.node? place <;> simp [Except.isOk, Except.toBool, held]

/-- The content of a regular file. -/
def file? (tree : FileTree) (path : String) : Option ByteArray :=
  if tree.isFile path then (tree.read path).toOption else none

theorem read_eq_ok_iff {content : ByteArray} :
    tree.read path = .ok content ↔
      ∃ place, tree.resolve path = .ok place ∧ tree.node? place = some (.file content) := by
  unfold read find
  cases tree.resolve path with
  | error error => simp
  | ok place =>
    simp only [Except.ok.injEq, exists_eq_left']
    cases tree.node? place with
    | none => simp
    | some node => cases node <;> simp

theorem isFile_eq_true_iff :
    tree.isFile path = true ↔
      (∃ content, tree.read path = .ok content) ∧ tree.resolve path ≠ .ok nullDevice := by
  simp only [read_eq_ok_iff]
  unfold isFile
  cases tree.resolve path with
  | error error => simp
  | ok place =>
    dsimp only
    cases held : tree.node? place with
    | none => simp [held]
    | some node => cases node <;> simp [held]

theorem file?_eq_some_iff_read {content : ByteArray} :
    tree.file? path = some content ↔
      tree.read path = .ok content ∧ tree.resolve path ≠ .ok nullDevice := by
  rw [file?]
  split
  next regular =>
    obtain ⟨⟨held, read⟩, elsewhere⟩ := isFile_eq_true_iff.mp regular
    simp [read, elsewhere, Except.toOption]
  next other =>
    rw [isFile_eq_true_iff] at other
    exact ⟨nofun, fun ⟨read, elsewhere⟩ => absurd ⟨⟨content, read⟩, elsewhere⟩ other⟩

theorem isFile_eq_isSome_file? : tree.isFile path = (tree.file? path).isSome := by
  rw [Bool.eq_iff_iff, Option.isSome_iff_exists, isFile_eq_true_iff]
  simp only [file?_eq_some_iff_read, exists_and_right]

/-- The content of a file is what its name holds in the directory of its other steps. -/
theorem file?_eq_some_iff {content : ByteArray} :
    tree.file? path = some content ↔
      IsUsable path ∧ ∃ front name dir, Path.parts path = front ++ [name] ∧ IsName name ∧
        tree.enter? (tree.start path) (front.filter isStep) = some dir ∧
        dir ++ [name] ≠ nullDevice ∧ tree.node? (dir ++ [name]) = some (.file content) := by
  rw [file?_eq_some_iff_read, read_eq_ok_iff]
  constructor
  · rintro ⟨⟨place, resolved, held⟩, elsewhere⟩
    obtain ⟨usable, followed⟩ := resolve_eq_ok_iff.mp resolved
    obtain ⟨front, name, dir, parts, isName, entered, rfl⟩ :=
      exists_name_of_follow (isGround_start tree path) followed (by simp [held])
    refine ⟨usable, front, name, dir, parts, isName, entered, ?_, held⟩
    rintro null
    exact elsewhere (null ▸ resolved)
  · rintro ⟨usable, front, name, dir, parts, isName, entered, regular, held⟩
    have resolved := resolve_name usable parts isName entered
    refine ⟨⟨dir ++ [name], resolved, held⟩, ?_⟩
    rw [resolved, Ne, Except.ok.injEq]
    exact regular

theorem steps_of_parts {front : List String} {name : String} (isName : IsName name)
    (parts : Path.parts path = front ++ [name]) :
    Path.steps path = front.filter isStep ++ [name] := by
  rw [Path.steps_eq, parts, List.filter_append, List.filter_cons_of_pos isName.isStep]
  rfl

/-- A path that leads to no directory names the last name on the way to the place. -/
theorem fileName?_of_resolve (resolved : tree.resolve path = .ok place)
    (file : tree.node? place ≠ some .directory) : Path.fileName? path = place.getLast? := by
  obtain ⟨front, name, dir, parts, isName, _, rfl⟩ :=
    exists_name_of_follow (isGround_start tree path) (resolve_eq_ok_iff.mp resolved).2 file
  rw [Path.fileName?, steps_of_parts isName parts, List.getLast?_concat, List.getLast?_concat]
  split
  next up => exact absurd (Option.some.inj up) isName.notUp
  next => rfl

/-- The name of the null device tells no format. -/
theorem ne_nullDevice_of_extension? {extension : String}
    (named : Path.extension? path = some extension) (resolved : tree.resolve path = .ok place)
    (file : tree.node? place ≠ some .directory) : place ≠ nullDevice := by
  rintro rfl
  have bare : Path.fileName? path = some "null" := fileName?_of_resolve resolved file
  rw [Path.extension?, bare] at named
  cases named

theorem utf8ByteSize_ofList_cons (c : Char) (rest : List Char) :
    (String.ofList (c :: rest)).utf8ByteSize = c.utf8Size + (String.ofList rest).utf8ByteSize := by
  rw [← List.singleton_append, String.ofList_append, String.utf8ByteSize_append]
  simp

theorem utf8ByteSize_le_of_sublist {some all : List Char} (sublist : some.Sublist all) :
    (String.ofList some).utf8ByteSize ≤ (String.ofList all).utf8ByteSize := by
  induction sublist with
  | slnil => exact Nat.le_refl _
  | cons c _ ih =>
    rw [utf8ByteSize_ofList_cons]
    omega
  | cons_cons c _ ih =>
    rw [utf8ByteSize_ofList_cons, utf8ByteSize_ofList_cons]
    omega

/-- The directory of a path that leads to no directory is there. -/
theorem find_parent (resolved : tree.resolve path = .ok place)
    (file : tree.node? place ≠ some .directory) (nonempty : Path.parent path ≠ "") :
    tree.find (Path.parent path) = .ok .directory := by
  obtain ⟨usable, followed⟩ := resolve_eq_ok_iff.mp resolved
  obtain ⟨front, name, dir, parts, isName, entered, rfl⟩ :=
    exists_name_of_follow (isGround_start tree path) followed file
  have sublist := Path.parent_sublist path
  have usable' : IsUsable (Path.parent path) := by
    refine ⟨fun nul => usable.noNul (sublist.subset nul), nonempty, fun long => usable.short ?_⟩
    have size := utf8ByteSize_le_of_sublist sublist
    rw [String.ofList_toList, String.ofList_toList] at size
    exact Nat.lt_of_lt_of_le long size
  have steps : Path.steps (Path.parent path) = front.filter isStep := by
    rw [Path.steps_parent, steps_of_parts isName parts, List.dropLast_concat]
  have start : tree.start (Path.parent path) = tree.start path := by
    rw [FileTree.start, FileTree.start, Path.isAbsolute_parent]
  have leads : tree.resolve (Path.parent path) = .ok dir :=
    resolve_eq_ok_iff.mpr
      ⟨usable', follow_of_enter? (by rwa [← Path.steps_eq, steps, start])⟩
  have directory := isGround_of_enter? (isGround_start tree path) entered dir (List.prefix_refl _)
  rw [find, leads]
  simp only [directory]

end SchemaInterfaces.FileTree
