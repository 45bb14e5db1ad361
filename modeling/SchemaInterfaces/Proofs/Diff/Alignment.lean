import SchemaInterfaces.Proofs.Diff.Block

/-!
# Changes align the two texts

The lines that are kept stand in both texts in the same order; the removed lines are what else the
old text has, the added ones what else the new text has. Blocks come one after the other in both
texts, so it is enough to see this in a single block (`parted_old`, `parted_new`).
-/
namespace SchemaInterfaces.Diff

/-- A text of which some lines are kept and the others are left over, each in their order. -/
inductive Parted : (whole kept left : List String) → Prop
  | nil : Parted [] [] []
  | keep {whole kept left : List String} (line : String) (h : Parted whole kept left) :
    Parted (line :: whole) (line :: kept) left
  | leave {whole kept left : List String} (line : String) (h : Parted whole kept left) :
    Parted (line :: whole) kept (line :: left)

namespace Parted

variable {whole kept left whole' kept' left' : List String}

theorem keepAll (lines : List String) : Parted lines lines [] := by
  induction lines with
  | nil => exact .nil
  | cons line lines ih => exact .keep line ih

theorem leaveAll (lines : List String) : Parted lines [] lines := by
  induction lines with
  | nil => exact .nil
  | cons line lines ih => exact .leave line ih

theorem append (h : Parted whole kept left) (h' : Parted whole' kept' left') :
    Parted (whole ++ whole') (kept ++ kept') (left ++ left') := by
  induction h with
  | nil => exact h'
  | keep line _ ih => exact .keep line ih
  | leave line _ ih => exact .leave line ih

theorem flatMap {α : Type} {whole kept left : α → List String}
    (each : ∀ a, Parted (whole a) (kept a) (left a)) (items : List α) :
    Parted (items.flatMap whole) (items.flatMap kept) (items.flatMap left) := by
  induction items with
  | nil => exact .nil
  | cons a items ih =>
    simp only [List.flatMap_cons]
    exact (each a).append ih

theorem length_eq (h : Parted whole kept left) : whole.length = kept.length + left.length := by
  induction h with
  | nil => rfl
  | keep line _ ih =>
    simp only [List.length_cons]
    omega
  | leave line _ ih =>
    simp only [List.length_cons]
    omega

theorem left_subset (h : Parted whole kept left) : left ⊆ whole := by
  induction h with
  | nil => exact List.Subset.refl _
  | keep line _ ih => exact List.subset_cons_of_subset line ih
  | leave line _ ih => exact List.cons_subset_cons line ih

end Parted

/-- The lines of one kind among changes. -/
def linesOf (kind : ChangeKind) (changes : List (ChangeKind × String)) : List String :=
  (changes.filter (·.1 = kind)).map (·.2)

theorem linesOf_append (kind : ChangeKind) (first second : List (ChangeKind × String)) :
    linesOf kind (first ++ second) = linesOf kind first ++ linesOf kind second := by
  simp only [linesOf, List.filter_append, List.map_append]

theorem linesOf_flatMap {α : Type} (kind : ChangeKind) (changes : α → List (ChangeKind × String))
    (items : List α) :
    linesOf kind (items.flatMap changes) = items.flatMap fun a => linesOf kind (changes a) := by
  induction items with
  | nil => rfl
  | cons a items ih => rw [List.flatMap_cons, linesOf_append, ih, List.flatMap_cons]

theorem linesOf_map (kind : ChangeKind) (f : String → String)
    (changes : List (ChangeKind × String)) :
    linesOf kind (changes.map fun change => (change.1, f change.2)) =
      (linesOf kind changes).map f := by
  simp only [linesOf, List.filter_map, List.map_map]
  rfl

theorem length_linesOf (kind : ChangeKind) (changes : List (ChangeKind × String)) :
    (linesOf kind changes).length = changes.countP (·.1 == kind) := by
  rw [linesOf, List.length_map, List.countP_eq_length_filter]
  exact congrArg _ (List.filter_congr fun change _ => rfl)

namespace Block

/-- The lines that a block leaves as they are. -/
def keptLines : Block → List String
  | keep _ _ lines => lines
  | change _ _ _ _ => []

theorem linesOf_changes (kind : ChangeKind) (oldStart newStart : Nat)
    (removed added : List String) :
    linesOf kind (change oldStart newStart removed added).changes =
      match kind with
      | .removed => removed
      | .added => added := by
  cases kind <;> simp [linesOf, changes, List.filter_map, Function.comp_def]

theorem parted_old (block : Block) :
    Parted block.oldLines block.keptLines (linesOf .removed block.changes) := by
  cases block with
  | keep _ _ lines => exact .keepAll lines
  | change oldStart newStart removed added =>
    rw [linesOf_changes]
    exact .leaveAll removed

theorem parted_new (block : Block) :
    Parted block.newLines block.keptLines (linesOf .added block.changes) := by
  cases block with
  | keep _ _ lines => exact .keepAll lines
  | change oldStart newStart removed added =>
    rw [linesOf_changes]
    exact .leaveAll added

end Block

/-- Two texts have lines in common that are kept, and the changes are all their other lines. -/
theorem exists_parted (old new : List String) :
    ∃ kept, Parted old kept (linesOf .removed ((blocks old new).flatMap Block.changes)) ∧
      Parted new kept (linesOf .added ((blocks old new).flatMap Block.changes)) := by
  refine ⟨(blocks old new).flatMap Block.keptLines, ?_, ?_⟩
  · rw [linesOf_flatMap]
    have parted := Parted.flatMap Block.parted_old (blocks old new)
    rwa [oldLines_blocks] at parted
  · rw [linesOf_flatMap]
    have parted := Parted.flatMap Block.parted_new (blocks old new)
    rwa [newLines_blocks] at parted

end SchemaInterfaces.Diff
