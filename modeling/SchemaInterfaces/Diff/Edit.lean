/-!
# Line edits

A comparison of two texts as a list of edits. An edit keeps, deletes or inserts some lines and says
where it stands in either text. The lines of the edits alone give both texts back: those kept or
deleted are the old text, those kept or inserted the new one.
-/
namespace SchemaInterfaces.Diff

/-- What an edit does with its lines. -/
inductive EditKind where
  | keep
  | delete
  | insert
  deriving DecidableEq, Repr

/-- Some lines with what happens to them, and the line numbers from zero at which the edit stands in
the old and in the new text. -/
structure Edit where
  kind : EditKind
  oldStart : Nat
  newStart : Nat
  lines : List String
  deriving DecidableEq, Repr

/-- The old lines that an edit covers. -/
def Edit.oldLines (edit : Edit) : List String :=
  if edit.kind = .insert then [] else edit.lines

/-- The new lines that an edit covers. -/
def Edit.newLines (edit : Edit) : List String :=
  if edit.kind = .delete then [] else edit.lines

/-- The old text that a script starts from. -/
def oldText (script : List Edit) : List String := script.flatMap Edit.oldLines

/-- The new text that a script leads to. -/
def newText (script : List Edit) : List String := script.flatMap Edit.newLines

/-- How many lines two texts have in common at their beginnings. -/
def commonStart : List String → List String → Nat
  | a :: as, b :: bs => if a = b then commonStart as bs + 1 else 0
  | _, _ => 0

/-- How many lines two texts have in common at their ends. -/
def commonEnd (a b : List String) : Nat := commonStart a.reverse b.reverse

end SchemaInterfaces.Diff
