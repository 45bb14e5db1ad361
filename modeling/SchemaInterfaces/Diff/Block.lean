import SchemaInterfaces.Diff.Compaction
import SchemaInterfaces.Diff.Script

/-!
# Blocks of changes

A script as it is reported: kept lines and changes in turn. A change removes some lines and adds
some, at least one of either.
-/
namespace SchemaInterfaces.Diff

/-- Kept lines, or removed and added ones, with the line numbers at which they stand. -/
inductive Block where
  | keep (oldStart newStart : Nat) (lines : List String)
  | change (oldStart newStart : Nat) (removed added : List String)
  deriving DecidableEq, Repr

namespace Block

def oldStart : Block → Nat
  | keep start _ _ => start
  | change start _ _ _ => start

def newStart : Block → Nat
  | keep _ start _ => start
  | change _ start _ _ => start

/-- The number of the old line behind a block. -/
def oldEnd : Block → Nat
  | keep start _ lines => start + lines.length
  | change start _ removed _ => start + removed.length

/-- The number of the new line behind a block. -/
def newEnd : Block → Nat
  | keep _ start lines => start + lines.length
  | change _ start _ added => start + added.length

def isKeep : Block → Bool
  | keep _ _ _ => true
  | change _ _ _ _ => false

/-- The block of one edit. -/
def ofEdit (edit : Edit) : Block :=
  match edit.kind with
  | .keep => keep edit.oldStart edit.newStart edit.lines
  | .delete => change edit.oldStart edit.newStart edit.lines []
  | .insert => change edit.oldStart edit.newStart [] edit.lines

/-- Joins an edit to the block before it, if both keep lines or both change them. The old place of a
change is that of its deletion, the new place that of its insertion. -/
def join? (block : Block) (edit : Edit) : Option Block :=
  match block, edit.kind with
  | keep oldStart newStart lines, .keep => some (keep oldStart newStart (lines ++ edit.lines))
  | change oldStart newStart removed added, .delete =>
    some (change (if removed.isEmpty then edit.oldStart else oldStart) newStart
      (removed ++ edit.lines) added)
  | change oldStart newStart removed added, .insert =>
    some (change oldStart (if added.isEmpty then edit.newStart else newStart) removed
      (added ++ edit.lines))
  | _, _ => none

/-- The blocks of a script, given the block that is still open. -/
def collect (block : Block) : List Edit → List Block
  | [] => [block]
  | edit :: rest =>
    match block.join? edit with
    | some joined => collect joined rest
    | none => block :: collect (ofEdit edit) rest

/-- The blocks of a script. -/
def ofScript : List Edit → List Block
  | [] => []
  | edit :: rest => collect (ofEdit edit) rest

end Block

/-- The blocks that lead from one text to another. -/
def blocks (old new : List String) : List Block :=
  Block.ofScript (compact (compareLines old new))

/-- Whether a line is only in the old text or only in the new one. -/
inductive ChangeKind where
  | removed
  | added
  deriving DecidableEq, Repr

/-- The lines that a block removes and then those that it adds. -/
def Block.changes : Block → List (ChangeKind × String)
  | keep _ _ _ => []
  | change _ _ removed added =>
    removed.map (ChangeKind.removed, ·) ++ added.map (ChangeKind.added, ·)

end SchemaInterfaces.Diff
