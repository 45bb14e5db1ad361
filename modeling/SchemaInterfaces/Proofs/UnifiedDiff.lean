import SchemaInterfaces.Proofs.Diff.Reading
import SchemaInterfaces.Proofs.LineChanges

/-!
# The unified diff and the changes

The unified diff of a drift shows the reported changes, and its hunks patch the text of the file to
the generated code (`Drift.ofFile_diff`). The header of the last hunk is not always right: where the
hunk ends with added lines, the count is taken from an insertion that may not know its place.
Replacing the lines that the headers name leads to the generated code exactly if this count is the
number of old lines that the hunk shows.
-/
namespace SchemaInterfaces

namespace Text

theorem HasLines.join_eq {text : String} {lines : List String} (h : HasLines text lines) :
    String.join lines = text := by
  rw [← hasLines_iff.mp h, ← String.toList_inj, String.toList_join, terminatedLines,
    List.flatMap_map]
  simp [List.flatMap_id', flatten_splitTerminated]

theorem HasLines.isLine {text line : String} {lines : List String} (h : HasLines text lines)
    (member : line ∈ lines) : Diff.IsLine line :=
  SplitsInto.isEnded_or_isOpen h (List.mem_map_of_mem member)

theorem HasLines.ne_empty {text line : String} {lines : List String} (h : HasLines text lines)
    (member : line ∈ lines) : line ≠ "" := by
  rintro rfl
  obtain ended | unended := h.isLine member
  · exact ended.ne_nil rfl
  · exact unended.1 rfl

end Text

namespace Drift

/-- A change without the line feed at the end of its line. -/
def withoutFeed (change : Diff.ChangeKind × String) : Diff.ChangeKind × String :=
  (change.1, withoutLineFeed change.2)

section

variable {existing generated : String} {oldLines newLines : List String}

theorem changes_ofTexts (path : String) (old : Text.HasLines existing oldLines)
    (new : Text.HasLines generated newLines) :
    (ofTexts path existing generated).changes =
      ((Diff.hunks oldLines newLines).flatMap Diff.Hunk.changes).map withoutFeed := by
  have changes : (ofTexts path existing generated).changes =
      ((Diff.hunks oldLines newLines).flatMap Diff.Hunk.changes).map fun change =>
        (change.1, dropLineFeeds change.2) := by
    rw [Diff.changes_hunks, ← Text.hasLines_iff.mp old, ← Text.hasLines_iff.mp new]
    rfl
  rw [changes]
  refine List.map_congr_left fun change member => ?_
  obtain ⟨hunk, among, shows⟩ := List.mem_flatMap.mp member
  have once : '\n' ∉ change.2.toList.dropLast := by
    obtain inOld | inNew := (Diff.patches_hunks oldLines newLines).mem_of_mem_changes among shows
    · exact old.lineFeed_not_mem_dropLast inOld
    · exact new.lineFeed_not_mem_dropLast inNew
  rw [withoutFeed, dropLineFeeds_eq once]

theorem diff_ofTexts (path : String) (old : Text.HasLines existing oldLines)
    (new : Text.HasLines generated newLines) :
    (ofTexts path existing generated).diff =
      Diff.unifiedText path "generated" (Diff.blocks oldLines newLines) := by
  rw [← Text.hasLines_iff.mp old, ← Text.hasLines_iff.mp new, ofTexts]

theorem changes_eq_nil_iff (path : String) (old : Text.HasLines existing oldLines)
    (new : Text.HasLines generated newLines) :
    (ofTexts path existing generated).changes = [] ↔ Diff.hunks oldLines newLines = [] := by
  rw [changes_ofTexts path old new, List.map_eq_nil_iff, Diff.hunks_eq_nil_iff]

theorem diff_eq_empty_iff (path : String) (old : Text.HasLines existing oldLines)
    (new : Text.HasLines generated newLines) :
    (ofTexts path existing generated).diff = "" ↔ Diff.hunks oldLines newLines = [] := by
  rw [diff_ofTexts path old new, Diff.hunks, List.map_eq_nil_iff, Diff.unifiedText]
  split
  next none => simpa using none
  next some => simpa using some

/-- The diff is read as the hunks between the two texts. -/
theorem readDiff?_ofTexts (path : String) (old : Text.HasLines existing oldLines)
    (new : Text.HasLines generated newLines) (changed : Diff.hunks oldLines newLines ≠ []) :
    Diff.readDiff? path "generated" (ofTexts path existing generated).diff =
      some (Diff.hunks oldLines newLines) := by
  rw [diff_ofTexts path old new]
  refine Diff.readDiff?_unifiedText path "generated" (fun hunk among shown shows => ?_) ?_
  · obtain inOld | inNew := (Diff.patches_hunks oldLines newLines).mem_of_mem_lines among shows
    · exact old.isLine inOld
    · exact new.isLine inNew
  · rwa [Diff.hunks, Ne, List.map_eq_nil_iff] at changed

end

theorem ofFile_eq {path existing generated : String} {tree : FileTree}
    (held : tree.read path = .ok existing.toUTF8) :
    (ofFile path generated : StateM FileTree _) tree =
      (.ok (ofTexts path existing generated), tree) := by
  rw [ofFile_run, FileTree.text_eq_ok.mpr held, report]

/-- The check of a text file gives a unified diff and a list of changes that agree. There is a diff
exactly if there are changes. Its hunks show the changes in their order, stand in the text of the
file where their headers say, and patch it to the generated code. The headers count the old lines
that their hunks show, apart perhaps from that of a last hunk that ends with an added line, and
replacing the lines that the headers name gives the generated code exactly if all headers count
right. -/
theorem ofFile_diff (path existing generated : String) (tree : FileTree)
    (held : tree.read path = .ok existing.toUTF8) :
    ∃ drift oldLines newLines,
      (ofFile path generated : StateM FileTree _) tree = (.ok drift, tree) ∧
      Text.HasLines existing oldLines ∧ Text.HasLines generated newLines ∧
      (drift.diff = "" ↔ drift.changes = []) ∧
      (drift.changes ≠ [] → ∃ hunks,
        Diff.readDiff? path "generated" drift.diff = some hunks ∧
        (hunks.flatMap Diff.Hunk.changes).map withoutFeed = drift.changes ∧
        Diff.Patches 0 hunks oldLines newLines ∧
        (∀ hunk ∈ hunks.dropLast, hunk.IsCounted) ∧
        (∀ hunk ∈ hunks, hunk.IsCounted ∨ hunk.EndsAdding) ∧
        ((Diff.replaceRanges 0 hunks oldLines).map String.join = some generated ↔
          ∀ hunk ∈ hunks, hunk.IsCounted)) := by
  obtain ⟨oldLines, old⟩ : ∃ oldLines, Text.HasLines existing oldLines :=
    ⟨_, Text.hasLines_iff.mpr rfl⟩
  obtain ⟨newLines, new⟩ : ∃ newLines, Text.HasLines generated newLines :=
    ⟨_, Text.hasLines_iff.mpr rfl⟩
  have patches := Diff.patches_hunks oldLines newLines
  have counted := Diff.isCounted_hunks oldLines newLines
  refine ⟨ofTexts path existing generated, oldLines, newLines, ofFile_eq held, old, new, ?_,
    fun changed => ?_⟩
  · rw [diff_eq_empty_iff path old new, changes_eq_nil_iff path old new]
  · rw [Ne, changes_eq_nil_iff path old new] at changed
    refine ⟨Diff.hunks oldLines newLines, readDiff?_ofTexts path old new changed,
      (changes_ofTexts path old new).symm, patches, counted,
      Diff.isCounted_or_endsAdding_hunks oldLines newLines, ?_⟩
    rw [← Diff.join_replaceRanges_eq_iff patches (fun _ => old.ne_empty) counted, new.join_eq]

/-- A line that is replaced by one without an ending. -/
theorem ofFile_diff_unended :
    (singleFile "a\n").read "a" = .ok "a\n".toUTF8 ∧
      ∃ drift hunks, (ofFile "a" "b" : StateM FileTree _) (singleFile "a\n") =
          (.ok drift, singleFile "a\n") ∧
        Diff.readDiff? "a" "generated" drift.diff = some hunks ∧
        (Diff.replaceRanges 0 hunks ["a\n"]).map String.join = some "b" := by
  have held : (singleFile "a\n").read "a" = .ok "a\n".toUTF8 := by rfl
  obtain ⟨drift, oldLines, newLines, checked, old, _, _, shown⟩ :=
    ofFile_diff "a" "a\n" "b" _ held
  have driftIs : drift = ofTexts "a" "a\n" "b" := by
    rw [ofFile_eq held] at checked
    cases checked
    rfl
  have oldIs : oldLines = ["a\n"] := (Text.hasLines_iff.mp old).symm.trans (by cbv)
  have changed : drift.changes = [(.removed, "a"), (.added, "b")] := by
    rw [driftIs]
    decide +kernel
  have diffIs : Diff.readDiff? "a" "generated" drift.diff =
      some [⟨0, 1, [(.delete, "a\n"), (.insert, "b")]⟩] := by
    rw [driftIs]
    decide +kernel
  obtain ⟨hunks, read, _, _, _, _, replaced⟩ := shown (by simp [changed])
  refine ⟨held, drift, hunks, checked, read, ?_⟩
  rw [oldIs] at replaced
  rw [replaced, ← Option.some.inj (diffIs.symm.trans read)]
  decide

/-- An insertion behind a deletion that slides on alone leaves a header behind that counts one line
too few. -/
theorem exists_diff_miscounted :
    ¬ ∀ (path existing generated : String) (tree : FileTree),
      tree.read path = .ok existing.toUTF8 →
      ∃ drift oldLines,
        (ofFile path generated : StateM FileTree _) tree = (.ok drift, tree) ∧
        Text.HasLines existing oldLines ∧
        (drift.diff = "" ↔ drift.changes = []) ∧
        (drift.changes ≠ [] → ∃ hunks,
          Diff.readDiff? path "generated" drift.diff = some hunks ∧
          (hunks.flatMap Diff.Hunk.changes).map withoutFeed = drift.changes ∧
          (Diff.replaceRanges 0 hunks oldLines).map String.join = some generated) := by
  intro always
  have held : (singleFile "a\nb\n").read "a" = .ok "a\nb\n".toUTF8 := by rfl
  obtain ⟨drift, oldLines, checked, old, _, shown⟩ := always "a" "a\nb\n" "b\nb\n" _ held
  have driftIs : drift = ofTexts "a" "a\nb\n" "b\nb\n" := by
    rw [ofFile_eq held] at checked
    cases checked
    rfl
  have oldIs : oldLines = ["a\n", "b\n"] := (Text.hasLines_iff.mp old).symm.trans (by cbv)
  have changed : drift.changes = [(.removed, "a"), (.added, "b")] := by
    rw [driftIs]
    decide +kernel
  have diffIs : Diff.readDiff? "a" "generated" drift.diff =
      some [⟨0, 1, [(.delete, "a\n"), (.keep, "b\n"), (.insert, "b\n")]⟩] := by
    rw [driftIs]
    decide +kernel
  obtain ⟨hunks, read, _, replaced⟩ := shown (by simp [changed])
  rw [← Option.some.inj (diffIs.symm.trans read), oldIs] at replaced
  exact absurd replaced (by decide)

end Drift

end SchemaInterfaces
