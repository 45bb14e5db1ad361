import Mathlib.Data.List.DropRight
import SchemaInterfaces.Proofs.CommandLine.Modes
import SchemaInterfaces.Proofs.Diff.Alignment
import SchemaInterfaces.Proofs.Text.Line

/-!
# The reported changes are an exact line edit script

The changes of a drift are the changed lines of the two texts, each without the line feed at its
end. Removed and added lines, taken away from the texts, leave the same kept lines
(`Drift.ofFile_changes`), and the counts in the note about a stale file are those of the changed
lines.
-/
namespace SchemaInterfaces

/-- A line without a line feed at its end. -/
def withoutLineFeed (line : String) : String :=
  if line.toList.getLast? = some '\n' then String.ofList line.toList.dropLast else line

namespace Text

/-- The lines of a text with their endings. -/
def HasLines (text : String) (lines : List String) : Prop :=
  SplitsInto text.toList (lines.map String.toList)

theorem hasLines_iff {text : String} {lines : List String} :
    HasLines text lines ↔ terminatedLines text = lines := by
  rw [HasLines, ← splitTerminated_iff, terminatedLines]
  constructor
  · intro split
    rw [split, List.map_map]
    exact List.map_id'' (fun _ => String.ofList_toList) lines
  · rintro rfl
    rw [List.map_map]
    exact (List.map_id'' (fun _ => String.toList_ofList) _).symm

/-- In a line of a text a line feed stands at the end only. -/
theorem HasLines.lineFeed_not_mem_dropLast {text line : String} {lines : List String}
    (h : HasLines text lines) (member : line ∈ lines) : '\n' ∉ line.toList.dropLast := by
  have plain {body : List Char} (inside : ∀ c ∈ body, isInLine c = true) : '\n' ∉ body :=
    fun feed => absurd (inside _ feed) (by decide)
  obtain ⟨body, inside, ending, known, whole⟩ | ⟨_, inside⟩ :=
    h.isEnded_or_isOpen (List.mem_map_of_mem member)
  · rw [whole]
    simp only [lineEndings, List.mem_cons, List.not_mem_nil, or_false] at known
    obtain rfl | rfl | rfl := known
    · rw [List.dropLast_concat]
      exact plain inside
    · have carriage : (body ++ ['\r', '\n']).dropLast = body ++ ['\r'] := by
        rw [List.dropLast_append_of_ne_nil (List.cons_ne_nil _ _)]
        rfl
      simp [carriage, plain inside]
    · rw [List.dropLast_concat]
      exact plain inside
  · exact fun feed => plain inside (List.dropLast_subset _ feed)

end Text

namespace Drift

/-- There is at most one line feed to drop. -/
theorem dropLineFeeds_eq {line : String} (once : '\n' ∉ line.toList.dropLast) :
    dropLineFeeds line = withoutLineFeed line := by
  have dropped : dropLineFeeds line = String.ofList (line.toList.rdropWhile (· = '\n')) := rfl
  rw [dropped, withoutLineFeed]
  split
  next feed =>
    obtain ⟨front, whole⟩ := List.getLast?_eq_some_iff.mp feed
    rw [whole, List.dropLast_concat] at once
    rw [whole, List.dropLast_concat, List.rdropWhile_concat_pos _ _ _ (by simp),
      List.rdropWhile_eq_self_iff.mpr]
    intro nonempty same
    exact once (of_decide_eq_true same ▸ List.getLast_mem nonempty)
  next other =>
    rw [List.rdropWhile_eq_self_iff.mpr, String.ofList_toList]
    intro nonempty same
    rw [List.getLast?_eq_some_getLast nonempty, of_decide_eq_true same] at other
    exact other rfl

theorem linesOf_changes_ofTexts (kind : Diff.ChangeKind) (path existing generated : String) :
    Diff.linesOf kind (ofTexts path existing generated).changes =
      (Diff.linesOf kind ((Diff.blocks (Text.terminatedLines existing)
        (Text.terminatedLines generated)).flatMap Diff.Block.changes)).map dropLineFeeds :=
  Diff.linesOf_map kind dropLineFeeds _

/-- Apart from the changed lines, the two texts have the same lines. -/
theorem exists_kept (path existing generated : String) :
    ∃ oldLines newLines kept removed added,
      Text.HasLines existing oldLines ∧ Text.HasLines generated newLines ∧
      Diff.Parted oldLines kept removed ∧ Diff.Parted newLines kept added ∧
      Diff.linesOf .removed (ofTexts path existing generated).changes =
        removed.map withoutLineFeed ∧
      Diff.linesOf .added (ofTexts path existing generated).changes =
        added.map withoutLineFeed := by
  obtain ⟨kept, old, new⟩ := Diff.exists_parted (Text.terminatedLines existing)
    (Text.terminatedLines generated)
  have oldLines := Text.hasLines_iff.mpr (rfl : Text.terminatedLines existing = _)
  have newLines := Text.hasLines_iff.mpr (rfl : Text.terminatedLines generated = _)
  refine ⟨_, _, kept, _, _, oldLines, newLines, old, new, ?_, ?_⟩
  · rw [linesOf_changes_ofTexts]
    exact List.map_congr_left fun line member =>
      dropLineFeeds_eq (oldLines.lineFeed_not_mem_dropLast (old.left_subset member))
  · rw [linesOf_changes_ofTexts]
    exact List.map_congr_left fun line member =>
      dropLineFeeds_eq (newLines.lineFeed_not_mem_dropLast (new.left_subset member))

/-- The notes on a file that is there but differs. -/
theorem stderr_stale (path : String) {drift : Drift} (present : drift.missing = false) :
    (CommandLine.Outcome.failed (CommandLine.driftNotes path drift) (.drift path)).stderr =
      "⚠️  " ++ path ++ " is stale (-" ++ toString drift.removedCount ++ " +"
        ++ toString drift.addedCount ++ ")\n" ++ drift.diff
        ++ "❌ Error: " ++ (CommandLine.Failure.drift path).message ++ "\n" := by
  simp only [CommandLine.Outcome.failed, CommandLine.driftNotes, present, Bool.false_eq_true,
    if_false]

/-- The check of a text file finds the lines that are kept in both texts: all other lines of the
file are reported as removed, all others of the code as added, in their order and without the line
feed at their end. Each text has as many lines as are kept and changed in it, and the note about a
stale file gives the numbers of these changes. -/
theorem ofFile_changes (path existing generated : String) (tree : FileTree)
    (held : tree.read path = .ok existing.toUTF8) :
    ∃ drift oldLines newLines kept removed added,
      (ofFile path generated : StateM FileTree _) tree = (.ok drift, tree) ∧
      Text.HasLines existing oldLines ∧ Text.HasLines generated newLines ∧
      Diff.Parted oldLines kept removed ∧ Diff.Parted newLines kept added ∧
      Diff.linesOf .removed drift.changes = removed.map withoutLineFeed ∧
      Diff.linesOf .added drift.changes = added.map withoutLineFeed ∧
      oldLines.length = kept.length + drift.removedCount ∧
      newLines.length = kept.length + drift.addedCount ∧
      (existing ≠ generated →
        ((CommandLine.compareOutput path generated : StateM FileTree _) tree).1.stderr =
          "⚠️  " ++ path ++ " is stale (-" ++ toString removed.length ++ " +"
            ++ toString added.length ++ ")\n" ++ drift.diff
            ++ "❌ Error: " ++ (CommandLine.Failure.drift path).message ++ "\n") := by
  obtain ⟨oldLines, newLines, kept, removed, added, oldSplit, newSplit, old, new, removedLines,
    addedLines⟩ := exists_kept path existing generated
  have checked : tree.text path = .ok existing := FileTree.text_eq_ok.mpr held
  have removedCount : (ofTexts path existing generated).removedCount = removed.length := by
    rw [Drift.removedCount, ← Diff.length_linesOf, removedLines, List.length_map]
  have addedCount : (ofTexts path existing generated).addedCount = added.length := by
    rw [Drift.addedCount, ← Diff.length_linesOf, addedLines, List.length_map]
  refine ⟨ofTexts path existing generated, oldLines, newLines, kept, removed, added, ?_, oldSplit,
    newSplit, old, new, removedLines, addedLines, ?_, ?_, fun differ => ?_⟩
  · rw [ofFile_run, checked, report]
  · rw [removedCount, old.length_eq]
  · rw [addedCount, new.length_eq]
  · have stale : ¬ (ofTexts path existing generated).agrees = true :=
      fun agrees => differ ((agrees_ofTexts_iff path existing generated).mp agrees)
    rw [CommandLine.compareOutput_run, checked, report, ← removedCount, ← addedCount]
    generalize present : ofTexts path existing generated = drift at stale ⊢
    have found : drift.missing = false := by rw [← present, ofTexts]
    simp only [stale]
    exact stderr_stale path found

/-- A repeated line, an ending that changes and a last line without one. -/
theorem ofFile_changes_endings :
    (singleFile "a\na\nb\r\nc").read "a" = .ok "a\na\nb\r\nc".toUTF8 ∧
      ∃ drift kept removed added,
        (ofFile "a" "a\nb\nc\n" : StateM FileTree _) (singleFile "a\na\nb\r\nc") =
          (.ok drift, singleFile "a\na\nb\r\nc") ∧
        Diff.Parted ["a\n", "a\n", "b\r\n", "c"] kept removed ∧
        Diff.Parted ["a\n", "b\n", "c\n"] kept added ∧
        4 = kept.length + drift.removedCount ∧ 3 = kept.length + drift.addedCount := by
  have held : (singleFile "a\na\nb\r\nc").read "a" = .ok "a\na\nb\r\nc".toUTF8 := by rfl
  obtain ⟨drift, oldLines, newLines, kept, removed, added, checked, oldSplit, newSplit, old, new, _,
    _, oldCount, newCount, _⟩ := ofFile_changes "a" "a\na\nb\r\nc" "a\nb\nc\n" _ held
  have oldIs : oldLines = ["a\n", "a\n", "b\r\n", "c"] :=
    (Text.hasLines_iff.mp oldSplit).symm.trans (by cbv)
  have newIs : newLines = ["a\n", "b\n", "c\n"] :=
    (Text.hasLines_iff.mp newSplit).symm.trans (by cbv)
  rw [oldIs] at old oldCount
  rw [newIs] at new newCount
  exact ⟨held, drift, kept, removed, added, checked, old, new, oldCount, newCount⟩

end Drift

end SchemaInterfaces
