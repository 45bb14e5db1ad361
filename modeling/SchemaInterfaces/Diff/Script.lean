import SchemaInterfaces.Diff.Edit
import SchemaInterfaces.Diff.MiddleSnake

/-!
# Edit scripts

A script of few edits that leads from one text to another. What the texts have in common at their
ends is kept; the rest is split at a middle snake and both halves are compared in turn.
-/
namespace SchemaInterfaces.Diff

/-- An edit, unless it has no lines. -/
def edit? (kind : EditKind) (oldStart newStart : Nat) (lines : List String) : List Edit :=
  if lines.isEmpty then [] else [⟨kind, oldStart, newStart, lines⟩]

/-- The script between two texts that stand at the given line numbers. The depth bounds the number
of splits inside each other; every split makes both halves shorter, so the number of lines is
enough. -/
def compareFrom (depth oldStart newStart : Nat) (old new : List String) : List Edit :=
  let head := commonStart old new
  let oldRest := old.drop head
  let newRest := new.drop head
  let tail := commonEnd oldRest newRest
  let oldCore := oldRest.take (oldRest.length - tail)
  let newCore := newRest.take (newRest.length - tail)
  let oldAt := oldStart + head
  let newAt := newStart + head
  let replaced := edit? .delete oldAt newAt oldCore ++ edit? .insert oldAt newAt newCore
  let core :=
    match depth with
    | 0 => replaced
    | depth + 1 =>
      if oldCore.isEmpty ∨ newCore.isEmpty then replaced
      else
        match middleSnake oldCore newCore with
        | none => replaced
        | some (x, y) =>
          compareFrom depth oldAt newAt (oldCore.take x) (newCore.take y) ++
            compareFrom depth (oldAt + x) (newAt + y) (oldCore.drop x) (newCore.drop y)
  edit? .keep oldStart newStart (old.take head) ++ core ++
    edit? .keep (oldAt + oldCore.length) (newAt + newCore.length) (oldRest.drop oldCore.length)

/-- The script between two texts. -/
def compareLines (old new : List String) : List Edit :=
  compareFrom (old.length + new.length + 1) 0 0 old new

end SchemaInterfaces.Diff
