import SchemaInterfaces.Diff.Hunk
import SchemaInterfaces.Proofs.Diff.Beginning
import SchemaInterfaces.Proofs.Diff.Patch

/-!
# Blocks in groups

Blocks that cover old lines stand where they say, and so does the first block. Cutting blocks into
groups only leaves kept lines out, so the groups patch the old text to the new one
(`patches_hunks`). A group that is followed by another one ends with kept lines and is counted
right; the last one may end with an insertion that does not know where it stands.
-/
namespace SchemaInterfaces.Diff

/-! ### Where blocks stand -/

namespace Block

/-- A block that covers old lines stands where it says. -/
def IsPlaced (block : Block) (line : Nat) : Prop :=
  match block with
  | keep start _ _ => start = line
  | change start _ removed _ => removed ≠ [] → start = line

theorem isPlaced_ofEdit {edit : Edit} {line : Nat} (h : edit.IsPlaced line) :
    (ofEdit edit).IsPlaced line := by
  unfold ofEdit
  split
  next keeps => exact h (by simp [keeps])
  next deletes => exact fun _ => h (by simp [deletes])
  next => exact fun some => absurd rfl some

theorem isPlaced_join? {block joined : Block} {edit : Edit} {line : Nat}
    (h : block.join? edit = some joined) (placed : block.IsPlaced line)
    (placed' : edit.IsPlaced (line + block.oldLines.length)) : joined.IsPlaced line := by
  unfold join? at h
  split at h
  next => cases h; exact placed
  next oldStart newStart removed added deletes =>
    cases h
    intro _
    cases removed with
    | nil => exact placed' (by simp [deletes])
    | cons line removed => exact placed (List.cons_ne_nil _ _)
  next => cases h; exact placed
  next => cases h

theorem stand_collect {block : Block} {script : List Edit} {line : Nat}
    (placed : block.IsPlaced line)
    (rest : EditsStand (line + block.oldLines.length) script) :
    Stand oldLines IsPlaced line (collect block script) := by
  fun_induction collect block script generalizing line with
  | case1 block => exact ⟨placed, trivial⟩
  | case2 block edit script joined h ih =>
    refine ih (isPlaced_join? h placed rest.1) ?_
    rw [oldLines_join? h, List.length_append, ← Nat.add_assoc]
    exact rest.2
  | case3 block edit script h ih =>
    exact ⟨placed, ih (isPlaced_ofEdit rest.1) (by simpa using rest.2)⟩

/-- A block says that it stands at the beginning, or a deletion is to join it. -/
def Begins (block : Block) (script : List Edit) : Prop :=
  block.oldStart = 0 ∨ block.isKeep = false ∧ DeletesFirst script

theorem begins_ofEdit {edit : Edit} {script : List Edit} (placed : edit.IsPlaced 0)
    (begins : BeginsInPlace (edit :: script)) : (ofEdit edit).Begins script := by
  unfold ofEdit
  split
  next keeps => exact .inl (placed (by simp [keeps]))
  next deletes => exact .inl (placed (by simp [deletes]))
  next inserts =>
    obtain (deletes | ⟨_, deletes⟩) | start := begins
    · rw [inserts] at deletes
      cases deletes
    · exact .inr ⟨rfl, deletes⟩
    · exact .inl (start edit rfl inserts)

theorem Begins.join {block joined : Block} {edit : Edit} {script : List Edit}
    (begins : block.Begins (edit :: script)) (h : block.join? edit = some joined)
    (placed : block.IsPlaced 0) (placed' : edit.IsPlaced block.oldLines.length) :
    joined.Begins script := by
  unfold join? at h
  split at h
  next =>
    cases h
    exact .inl (begins.resolve_right fun later => Bool.noConfusion later.1)
  next oldStart newStart removed added deletes =>
    cases h
    left
    cases removed with
    | nil => exact placed' (by simp [deletes])
    | cons line removed => exact placed (List.cons_ne_nil _ _)
  next inserts =>
    cases h
    obtain start | ⟨_, deletes | ⟨_, deletes⟩⟩ := begins
    · exact .inl start
    · rw [inserts] at deletes
      cases deletes
    · exact .inr ⟨rfl, deletes⟩
  next => cases h

theorem Begins.oldStart_eq {block : Block} {edit : Edit} {script : List Edit}
    (begins : block.Begins (edit :: script)) (h : block.join? edit = none) :
    block.oldStart = 0 := by
  refine begins.resolve_right fun ⟨changes, deletes⟩ => ?_
  cases block with
  | keep => cases changes
  | change => cases kind : edit.kind <;> simp_all [join?, DeletesFirst]

theorem oldStart_collect {block first : Block} {script : List Edit} (placed : block.IsPlaced 0)
    (rest : EditsStand block.oldLines.length script) (begins : block.Begins script)
    (member : first ∈ (collect block script).head?) : first.oldStart = 0 := by
  fun_induction collect block script with
  | case1 block =>
    cases member
    exact begins.resolve_right And.right
  | case2 block edit script joined h ih =>
    have placed' : edit.IsPlaced (0 + block.oldLines.length) := by simpa using rest.1
    refine ih (isPlaced_join? h placed placed') ?_ (begins.join h placed rest.1) member
    rw [oldLines_join? h, List.length_append]
    exact rest.2
  | case3 block edit script h ih =>
    cases member
    exact begins.oldStart_eq h

end Block

/-- The lines of a block with what happens to them. -/
def Block.marked : Block → List (EditKind × String)
  | keep _ _ lines => lines.map (EditKind.keep, ·)
  | change _ _ removed added =>
    removed.map (EditKind.delete, ·) ++ added.map (EditKind.insert, ·)

theorem Block.marked_ofEdit_ne_nil {edit : Edit} (some : edit.lines ≠ []) :
    (ofEdit edit).marked ≠ [] := by
  unfold ofEdit
  split <;> simpa [marked] using some

theorem Block.marked_collect_ne_nil {block : Block} {script : List Edit} (some : block.marked ≠ [])
    (full : ∀ edit ∈ script, edit.lines ≠ []) :
    ∀ collected ∈ collect block script, collected.marked ≠ [] := by
  fun_induction collect block script with
  | case1 block => simpa using some
  | case2 block edit script joined h ih =>
    refine ih ?_ (List.forall_mem_cons.mp full).2
    unfold join? at h
    split at h <;> cases h <;> simp_all [marked]
  | case3 block edit script h ih =>
    obtain ⟨first, full⟩ := List.forall_mem_cons.mp full
    exact List.forall_mem_cons.mpr ⟨some, ih (marked_ofEdit_ne_nil first) full⟩

/-- Blocks that have lines and stand where they say, the first one in any case. -/
structure Stands (line : Nat) (blocks : List Block) : Prop where
  placed : Stand Block.oldLines Block.IsPlaced line blocks
  starts : ∀ first ∈ blocks.head?, first.oldStart = line
  full : ∀ block ∈ blocks, block.marked ≠ []

theorem stands_blocks (old new : List String) : Stands 0 (blocks old new) := by
  obtain ⟨⟨placed, full⟩, begins⟩ := inPlace_compact old new
  rw [blocks]
  generalize compact (compareLines old new) = script at placed full begins ⊢
  cases script with
  | nil => exact ⟨trivial, by simp [Block.ofScript], by simp [Block.ofScript]⟩
  | cons edit script =>
    have rest : EditsStand (Block.ofEdit edit).oldLines.length script := by
      simpa using placed.2
    have first := Block.isPlaced_ofEdit placed.1
    obtain ⟨some, full⟩ := List.forall_mem_cons.mp full
    refine ⟨Block.stand_collect first (by simpa using rest), fun block member => ?_,
      Block.marked_collect_ne_nil (Block.marked_ofEdit_ne_nil some) full⟩
    exact Block.oldStart_collect first rest (Block.begins_ofEdit placed.1 begins) member

/-! ### Groups -/

/-- The hunk of a group, with the old lines that its header names. -/
def Hunk.ofGroup (group : List Block) : Hunk :=
  let start := (group.head?.map Block.oldStart).getD 0
  ⟨start, (group.getLast?.map Block.oldEnd).getD 0 - start, group.flatMap Block.marked⟩

namespace Hunk

theorem filter_marked (group : List Block) (kept : EditKind → Bool) :
    ((group.flatMap Block.marked).filter (kept ·.1)).map (·.2) =
      group.flatMap fun block => (block.marked.filter (kept ·.1)).map (·.2) := by
  rw [List.filter_flatMap, List.map_flatMap]

theorem oldLines_ofGroup (group : List Block) :
    (ofGroup group).oldLines = group.flatMap Block.oldLines := by
  rw [oldLines, ofGroup, filter_marked group (· ≠ .insert)]
  refine List.flatMap_congr fun block _ => ?_
  cases block <;> simp [Block.marked, Block.oldLines, List.filter_map, Function.comp_def]

theorem newLines_ofGroup (group : List Block) :
    (ofGroup group).newLines = group.flatMap Block.newLines := by
  rw [newLines, ofGroup, filter_marked group (· ≠ .delete)]
  refine List.flatMap_congr fun block _ => ?_
  cases block <;> simp [Block.marked, Block.newLines, List.filter_map, Function.comp_def]

theorem changes_ofGroup (group : List Block) :
    (ofGroup group).changes = group.flatMap Block.changes := by
  rw [changes, ofGroup, List.filterMap_flatMap]
  refine List.flatMap_congr fun block _ => ?_
  cases block <;> simp [Block.marked, Block.changes, change?, List.filterMap_map,
    Function.comp_def, List.filterMap_append]

section

variable {line : Nat} {group : List Block}

theorem start_ofGroup (some : group ≠ []) (starts : ∀ first ∈ group.head?, first.oldStart = line) :
    (ofGroup group).start = line := by
  obtain ⟨first, rest, rfl⟩ := List.exists_cons_of_ne_nil some
  exact starts first rfl

/-- A group whose last block covers old lines knows where it ends. -/
theorem isCounted_ofGroup {last : Block} (h : Stands line (group ++ [last]))
    (ends : last.oldStart = line + (group.flatMap Block.oldLines).length) :
    (ofGroup (group ++ [last])).IsCounted := by
  have start := start_ofGroup (by simp) h.starts
  have count : (ofGroup (group ++ [last])).count =
      last.oldStart + last.oldLines.length - (ofGroup (group ++ [last])).start := by
    cases last <;> simp [ofGroup, Block.oldEnd, Block.oldStart, Block.oldLines]
  rw [IsCounted, count, start, ends, oldLines_ofGroup]
  simp only [List.flatMap_append, List.flatMap_singleton, List.length_append]
  omega

/-- A group is counted right unless it ends with an insertion. -/
theorem isCounted_or_endsAdding (some : group ≠ []) (h : Stands line group) :
    (ofGroup group).IsCounted ∨ (ofGroup group).EndsAdding := by
  obtain ⟨front, last, rfl⟩ := (List.eq_nil_or_concat' group).resolve_left some
  obtain ⟨_, ends, _⟩ := (stand_append line front _).mp h.placed
  match last with
  | .keep _ _ lines => exact .inl (isCounted_ofGroup h ends)
  | .change _ _ (removed :: more) added =>
    exact .inl (isCounted_ofGroup h (ends (List.cons_ne_nil _ _)))
  | .change oldStart newStart [] added =>
    right
    have shown : added ≠ [] := by
      simpa [Block.marked] using h.full (.change oldStart newStart [] added) (by simp)
    obtain ⟨others, line, rfl⟩ := (List.eq_nil_or_concat' added).resolve_left shown
    exact ⟨line, by simp [ofGroup, Block.marked]⟩

end

end Hunk

namespace Stands

variable {line oldStart newStart : Nat} {lines : List String} {front rest : List Block}

/-- Blocks up to somewhere in kept lines. -/
theorem upTo (h : Stands line (front ++ .keep oldStart newStart lines :: rest)) {count : Nat}
    (some : count ≠ 0) :
    Stands line (front ++ [.keep oldStart newStart (lines.take count)]) := by
  obtain ⟨before, ends, _⟩ := (stand_append line front _).mp h.placed
  obtain ⟨full, full'⟩ := List.forall_mem_append.mp h.full
  refine ⟨(stand_append line front _).mpr ⟨before, ends, trivial⟩, ?_, ?_⟩
  · cases front with
    | nil =>
      rintro _ ⟨⟩
      exact h.starts (.keep oldStart newStart lines) rfl
    | cons first front => exact h.starts
  · have shown := (List.forall_mem_cons.mp full').1
    refine List.forall_mem_append.mpr ⟨full, List.forall_mem_singleton.mpr ?_⟩
    simpa [Block.marked, some] using shown

/-- Blocks from somewhere in kept lines on. -/
theorem fromWithin (h : Stands line (front ++ .keep oldStart newStart lines :: rest)) {cut : Nat}
    (fits : cut < lines.length) (newStart' : Nat) :
    Stands (oldStart + cut) (.keep (oldStart + cut) newStart' (lines.drop cut) :: rest) := by
  obtain ⟨_, ends, after⟩ := (stand_append line front _).mp h.placed
  obtain ⟨_, full⟩ := List.forall_mem_append.mp h.full
  refine ⟨⟨rfl, ?_⟩, fun first member => by cases member; rfl, ?_⟩
  · have sum : oldStart + cut + (lines.drop cut).length = oldStart + lines.length := by
      rw [List.length_drop]
      omega
    rw [Block.oldLines, sum, show oldStart = _ from ends]
    exact after
  · refine List.forall_mem_cons.mpr ⟨?_, (List.forall_mem_cons.mp full).2⟩
    simpa [Block.marked] using fits

end Stands

/-- Hunks that lead from the old lines of blocks to the new ones. A hunk that is not counted right
is the last one and ends with an added line. -/
structure PatchBlocks (line : Nat) (hunks : List Hunk) (blocks : List Block) : Prop where
  patches :
    Patches line hunks (blocks.flatMap Block.oldLines) (blocks.flatMap Block.newLines)
  counted : ∀ hunk ∈ hunks.dropLast, hunk.IsCounted
  countedOrAdding : ∀ hunk ∈ hunks, hunk.IsCounted ∨ hunk.EndsAdding

/-- The lines up to a place, those between it and a later one, and those behind make the whole. -/
theorem append_between {first cut : Nat} (apart : first ≤ cut) (lines behind : List String) :
    lines.take first ++ ((lines.drop first).take (cut - first) ++ (lines.drop cut ++ behind)) =
      lines ++ behind := by
  have later : lines.drop cut = (lines.drop first).drop (cut - first) := by
    rw [List.drop_drop, Nat.add_sub_cancel' apart]
  have rest : (lines.drop first).take (cut - first) ++ (lines.drop cut ++ behind) =
      lines.drop first ++ behind := by
    rw [later, ← List.append_assoc, List.take_append_drop]
  rw [rest, ← List.append_assoc, List.take_append_drop]

/-- A hunk for the blocks up to the beginning of kept lines; what lies between it and the next hunks
is left out. -/
theorem PatchBlocks.cut {line oldStart newStart newStart' first cut : Nat} {lines : List String}
    {front rest : List Block} {hunks : List Hunk}
    (h : Stands line (front ++ .keep oldStart newStart lines :: rest)) (some : first ≠ 0)
    (apart : first ≤ cut) (fits : cut ≤ lines.length)
    (more : PatchBlocks (oldStart + cut) hunks
      (.keep (oldStart + cut) newStart' (lines.drop cut) :: rest)) :
    PatchBlocks line
      (Hunk.ofGroup (front ++ [.keep oldStart newStart (lines.take first)]) :: hunks)
      (front ++ .keep oldStart newStart lines :: rest) := by
  have before := h.upTo some
  have start := Hunk.start_ofGroup (by simp) before.starts
  obtain ⟨_, stands, _⟩ := (stand_append line front _).mp h.placed
  have counted := Hunk.isCounted_ofGroup before stands
  let middle := (lines.drop first).take (cut - first)
  let hunk := Hunk.ofGroup (front ++ [.keep oldStart newStart (lines.take first)])
  have old : hunk.oldLines = front.flatMap Block.oldLines ++ lines.take first := by
    simp [hunk, Hunk.oldLines_ofGroup, Block.oldLines]
  have new : hunk.newLines = front.flatMap Block.newLines ++ lines.take first := by
    simp [hunk, Hunk.newLines_ofGroup, Block.newLines]
  have between : oldStart + cut = line + hunk.oldLines.length + middle.length := by
    have stands : oldStart = line + (front.flatMap Block.oldLines).length := stands
    simp only [old, middle, List.length_append, List.length_take, List.length_drop]
    omega
  have next := more.patches
  rw [between] at next
  have patches := Patches.cons [] start (start ▸ next.inFront middle)
  constructor
  · rw [old, new] at patches
    simpa [Block.oldLines, Block.newLines, middle, append_between apart] using patches
  · cases hunks with
    | nil => simp
    | cons next hunks => exact List.forall_mem_cons.mpr ⟨counted, more.counted⟩
  · exact List.forall_mem_cons.mpr ⟨.inl counted, more.countedOrAdding⟩

/-- The groups of blocks patch the old lines of the blocks to the new ones. -/
theorem patchBlocks_groupBlocks {line : Nat} {group blocks : List Block}
    (h : Stands line (group.reverse ++ blocks)) :
    PatchBlocks line ((groupBlocks group blocks).map Hunk.ofGroup) (group.reverse ++ blocks) := by
  fun_induction groupBlocks group blocks generalizing line with
  | case1 => exact ⟨.nil line _, by simp, by simp⟩
  | case2 => exact ⟨.nil line _, by simp, by simp⟩
  | case3 group some _ =>
    have shown : group.reverse ≠ [] := fun none => some (List.reverse_eq_nil_iff.mp none)
    rw [List.append_nil] at h ⊢
    refine ⟨?_, by simp, by simpa using Hunk.isCounted_or_endsAdding shown h⟩
    have single := Patches.cons [] (Hunk.start_ofGroup shown h.starts) (.nil _ [])
    simpa [Hunk.oldLines_ofGroup, Hunk.newLines_ofGroup] using single
  | case4 group rest oldStart newStart lines long ih =>
    have fits : lines.length - contextRadius < lines.length := by
      simp only [contextRadius] at long ⊢
      omega
    have apart : contextRadius ≤ lines.length - contextRadius := by omega
    have more := ih (h.fromWithin fits (newStart + (lines.length - contextRadius)))
    have cut := PatchBlocks.cut h (by decide) apart (Nat.le_of_lt fits) more
    simpa [Block.keepFirst] using cut
  | case5 group rest oldStart newStart lines _ ih => simpa using ih (by simpa using h)
  | case6 group rest oldStart newStart removed added ih => simpa using ih (by simpa using h)

/-! ### Shortened ends -/

/-- Shortens the kept lines at the beginning. -/
def trimFront : List Block → List Block
  | first :: rest => first.keepLast contextRadius :: rest
  | [] => []

theorem trimEnds_cases (blocks : List Block) :
    blocks = [] ∨ ∃ front last, trimFront blocks = front ++ [last] ∧
      trimEnds blocks = front ++ [last.keepFirst contextRadius] := by
  have shortened : trimEnds blocks = match (trimFront blocks).reverse with
      | last :: rest => (last.keepFirst contextRadius :: rest).reverse
      | [] => [] := by
    cases blocks <;> rfl
  cases blocks with
  | nil => exact .inl rfl
  | cons first rest =>
    obtain ⟨front, last, split⟩ := (List.eq_nil_or_concat' (trimFront (first :: rest))).resolve_left
      (List.cons_ne_nil _ _)
    refine .inr ⟨front, last, split, ?_⟩
    rw [shortened, split, List.reverse_concat]
    simp

/-- What patches blocks with a shortened beginning patches the blocks. -/
theorem exists_patchBlocks_of_trimFront {line : Nat} {blocks : List Block}
    (h : Stands line blocks) :
    ∃ line', Stands line' (trimFront blocks) ∧
      ∀ hunks, PatchBlocks line' hunks (trimFront blocks) → PatchBlocks line hunks blocks := by
  match blocks with
  | [] => exact ⟨line, h, fun _ => id⟩
  | .change oldStart newStart removed added :: rest => exact ⟨line, h, fun _ => id⟩
  | .keep oldStart newStart lines :: rest =>
    have within : Stands line ([] ++ .keep oldStart newStart lines :: rest) := h
    let cut := lines.length - contextRadius
    have some : lines ≠ [] := by simpa [Block.marked] using h.full _ List.mem_cons_self
    have fits : cut < lines.length :=
      Nat.sub_lt (List.length_pos_iff.mpr some) (by decide)
    have start : oldStart = line := h.placed.1
    have gap : (lines.take cut).length = cut := List.length_take_of_le (Nat.le_of_lt fits)
    refine ⟨oldStart + cut, within.fromWithin fits (newStart + cut), fun hunks shortened => ?_⟩
    refine ⟨?_, shortened.counted, shortened.countedOrAdding⟩
    have patches := shortened.patches
    rw [start, ← gap] at patches
    have longer := patches.inFront (lines.take cut)
    simp only [trimFront, Block.keepLast, List.flatMap_cons, Block.oldLines, Block.newLines,
      ← List.append_assoc] at longer ⊢
    rwa [List.take_append_drop] at longer

/-- What patches blocks with a shortened end patches the blocks. -/
theorem patchBlocks_of_keepFirst {line : Nat} {front : List Block} {last : Block}
    (h : Stands line (front ++ [last])) :
    Stands line (front ++ [last.keepFirst contextRadius]) ∧
      ∀ hunks, PatchBlocks line hunks (front ++ [last.keepFirst contextRadius]) →
        PatchBlocks line hunks (front ++ [last]) := by
  match last with
  | .change oldStart newStart removed added => exact ⟨h, fun _ => id⟩
  | .keep oldStart newStart lines =>
    refine ⟨h.upTo (by decide), fun hunks shortened => ?_⟩
    refine ⟨?_, shortened.counted, shortened.countedOrAdding⟩
    have longer := shortened.patches.behind (lines.drop contextRadius)
    simpa [Block.keepFirst, Block.oldLines, Block.newLines] using longer

/-- The groups of blocks whose ends are shortened patch the old lines of the blocks to the new
ones. -/
theorem patchBlocks_trimEnds {line : Nat} {blocks : List Block} (h : Stands line blocks) :
    PatchBlocks line ((groupBlocks [] (trimEnds blocks)).map Hunk.ofGroup) blocks := by
  obtain rfl | ⟨front, last, split, shortened⟩ := trimEnds_cases blocks
  · exact ⟨.nil line [], by simp [trimEnds, groupBlocks], by simp [trimEnds, groupBlocks]⟩
  · obtain ⟨line', stands, lengthen⟩ := exists_patchBlocks_of_trimFront h
    rw [split] at stands lengthen
    obtain ⟨stands', lengthen'⟩ := patchBlocks_of_keepFirst stands
    rw [shortened]
    exact lengthen _ (lengthen' _ (patchBlocks_groupBlocks stands'))

/-! ### Changes -/

theorem changes_keepFirst (count : Nat) (block : Block) :
    (block.keepFirst count).changes = block.changes := by
  cases block <;> rfl

theorem changes_keepLast (count : Nat) (block : Block) :
    (block.keepLast count).changes = block.changes := by
  cases block <;> rfl

theorem changes_trimEnds (blocks : List Block) :
    (trimEnds blocks).flatMap Block.changes = blocks.flatMap Block.changes := by
  obtain rfl | ⟨others, last, split, shortened⟩ := trimEnds_cases blocks
  · rfl
  · have front : (trimFront blocks).flatMap Block.changes = blocks.flatMap Block.changes := by
      cases blocks <;> simp [trimFront, changes_keepLast]
    rw [← front, split, shortened]
    simp [changes_keepFirst]

theorem changes_groupBlocks (group blocks : List Block) :
    ((groupBlocks group blocks).map Hunk.ofGroup).flatMap Hunk.changes =
      (group.reverse ++ blocks).flatMap Block.changes := by
  fun_induction groupBlocks group blocks with
  | case1 => rfl
  | case2 => rfl
  | case3 => simp [Hunk.changes_ofGroup]
  | case4 group rest oldStart newStart lines long ih =>
    simpa [Hunk.changes_ofGroup, Block.changes, Block.keepFirst, Block.keepLast] using ih
  | case5 group rest oldStart newStart lines _ ih => simpa using ih
  | case6 group rest oldStart newStart removed added ih => simpa using ih

/-- The hunks of the unified diff between two texts. -/
def hunks (old new : List String) : List Hunk :=
  (groupBlocks [] (trimEnds (blocks old new))).map Hunk.ofGroup

theorem patches_hunks (old new : List String) : Patches 0 (hunks old new) old new := by
  have patches := (patchBlocks_trimEnds (stands_blocks old new)).patches
  rwa [oldLines_blocks, newLines_blocks] at patches

theorem isCounted_hunks (old new : List String) :
    ∀ hunk ∈ (hunks old new).dropLast, hunk.IsCounted :=
  (patchBlocks_trimEnds (stands_blocks old new)).counted

theorem isCounted_or_endsAdding_hunks (old new : List String) :
    ∀ hunk ∈ hunks old new, hunk.IsCounted ∨ hunk.EndsAdding :=
  (patchBlocks_trimEnds (stands_blocks old new)).countedOrAdding

theorem changes_hunks (old new : List String) :
    (hunks old new).flatMap Hunk.changes = (blocks old new).flatMap Block.changes := by
  rw [hunks, changes_groupBlocks, List.reverse_nil, List.nil_append, changes_trimEnds]

/-- There is nothing to patch exactly if nothing changes. -/
theorem hunks_eq_nil_iff (old new : List String) :
    hunks old new = [] ↔ (hunks old new).flatMap Hunk.changes = [] := by
  refine ⟨fun none => by rw [none]; rfl, fun unchanged => ?_⟩
  rw [changes_hunks, changes_eq_nil_iff] at unchanged
  subst unchanged
  have short (start start' : Nat) (lines : List String) (h : lines.length ≤ contextRadius) :
      groupBlocks [] [.keep start start' lines] = [] := by
    rw [groupBlocks, if_neg (by omega), groupBlocks]
  rw [hunks, blocks_self]
  split
  next => rfl
  next =>
    simp only [trimEnds, Block.keepLast, List.reverse_singleton, Block.keepFirst]
    rw [short _ _ _ (List.length_take_le _ _), List.map_nil]

end SchemaInterfaces.Diff
