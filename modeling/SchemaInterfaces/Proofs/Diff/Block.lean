import SchemaInterfaces.Diff.Block
import SchemaInterfaces.Proofs.Diff.Compaction

/-!
# Blocks lead from one text to the other

Collecting a script into blocks only joins neighbouring edits, so the blocks cover the lines of both
texts in order. Where no block changes anything, every block covers the same lines on both sides:
two texts without changes are equal (`changes_eq_nil_iff`).
-/
namespace SchemaInterfaces.Diff

namespace Block

/-- The old lines that a block covers. -/
def oldLines : Block → List String
  | keep _ _ lines => lines
  | change _ _ removed _ => removed

/-- The new lines that a block covers. -/
def newLines : Block → List String
  | keep _ _ lines => lines
  | change _ _ _ added => added

@[simp] theorem oldLines_ofEdit (edit : Edit) : (ofEdit edit).oldLines = edit.oldLines := by
  unfold ofEdit Edit.oldLines
  cases edit.kind <;> simp [oldLines]

@[simp] theorem newLines_ofEdit (edit : Edit) : (ofEdit edit).newLines = edit.newLines := by
  unfold ofEdit Edit.newLines
  cases edit.kind <;> simp [newLines]

theorem oldLines_join? {block joined : Block} {edit : Edit} (h : block.join? edit = some joined) :
    joined.oldLines = block.oldLines ++ edit.oldLines := by
  unfold join? at h
  split at h
  next kept => cases h; simp [oldLines, Edit.oldLines, kept]
  next deleted => cases h; simp [oldLines, Edit.oldLines, deleted]
  next inserted => cases h; simp [oldLines, Edit.oldLines, inserted]
  next => cases h

theorem newLines_join? {block joined : Block} {edit : Edit} (h : block.join? edit = some joined) :
    joined.newLines = block.newLines ++ edit.newLines := by
  unfold join? at h
  split at h
  next kept => cases h; simp [newLines, Edit.newLines, kept]
  next deleted => cases h; simp [newLines, Edit.newLines, deleted]
  next inserted => cases h; simp [newLines, Edit.newLines, inserted]
  next => cases h

theorem oldLines_collect (block : Block) (script : List Edit) :
    (collect block script).flatMap oldLines = block.oldLines ++ oldText script := by
  fun_induction collect block script with
  | case1 block => simp
  | case2 block edit rest joined h ih => simp [ih, oldLines_join? h]
  | case3 block edit rest h ih => simp [ih]

theorem newLines_collect (block : Block) (script : List Edit) :
    (collect block script).flatMap newLines = block.newLines ++ newText script := by
  fun_induction collect block script with
  | case1 block => simp
  | case2 block edit rest joined h ih => simp [ih, newLines_join? h]
  | case3 block edit rest h ih => simp [ih]

theorem oldLines_ofScript (script : List Edit) :
    (ofScript script).flatMap oldLines = oldText script := by
  cases script with
  | nil => rfl
  | cons edit rest => simp [ofScript, oldLines_collect]

theorem newLines_ofScript (script : List Edit) :
    (ofScript script).flatMap newLines = newText script := by
  cases script with
  | nil => rfl
  | cons edit rest => simp [ofScript, newLines_collect]

/-- A block that changes nothing covers the same lines on both sides. -/
theorem lines_eq_of_changes {block : Block} (h : block.changes = []) :
    block.oldLines = block.newLines := by
  cases block with
  | keep _ _ lines => rfl
  | change _ _ removed added =>
    obtain ⟨none, none'⟩ : removed = [] ∧ added = [] := by simpa [changes] using h
    rw [oldLines, newLines, none, none']

end Block

theorem oldLines_blocks (old new : List String) :
    (blocks old new).flatMap Block.oldLines = old := by
  rw [blocks, Block.oldLines_ofScript]
  exact (leads_compact (leads_compareLines old new)).old

theorem newLines_blocks (old new : List String) :
    (blocks old new).flatMap Block.newLines = new := by
  rw [blocks, Block.newLines_ofScript]
  exact (leads_compact (leads_compareLines old new)).new

/-- A text compared with itself is kept in one block, unless it is empty. -/
theorem blocks_self (lines : List String) :
    blocks lines lines = if lines = [] then [] else [.keep 0 0 lines] := by
  rw [blocks, compareLines_self, compact_of_keeps]
  · unfold edit?
    split <;> simp_all [Block.ofScript, Block.collect, Block.ofEdit]
  · unfold edit?
    split <;> simp

/-- Nothing changes from a text to itself. -/
theorem changes_blocks_self (lines : List String) :
    (blocks lines lines).flatMap Block.changes = [] := by
  rw [blocks_self]
  split <;> rfl

theorem changes_eq_nil_iff (old new : List String) :
    (blocks old new).flatMap Block.changes = [] ↔ old = new := by
  constructor
  · intro unchanged
    have covered : ∀ block ∈ blocks old new, block.oldLines = block.newLines := fun block member =>
      Block.lines_eq_of_changes (List.flatMap_eq_nil_iff.mp unchanged block member)
    calc old = (blocks old new).flatMap Block.oldLines := (oldLines_blocks old new).symm
      _ = (blocks old new).flatMap Block.newLines := List.flatMap_congr covered
      _ = new := newLines_blocks old new
  · rintro rfl
    exact changes_blocks_self old

end SchemaInterfaces.Diff
