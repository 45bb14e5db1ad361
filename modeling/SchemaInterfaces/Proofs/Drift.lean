import SchemaInterfaces.Drift
import SchemaInterfaces.Proofs.Diff.Block
import SchemaInterfaces.Proofs.Files.Tree

/-!
# The drift check is exact

A file agrees with generated code when no line changes. The lines keep their endings, so texts with
the same lines are the same text, and no difference is lost in between: not a line ending, and not
a blank at the end of a line (`agrees_ofTexts_iff`).
-/
namespace SchemaInterfaces

/-- Texts with the same terminated lines are equal. -/
theorem Text.terminatedLines_inj {a b : String} :
    Text.terminatedLines a = Text.terminatedLines b ↔ a = b := by
  refine ⟨fun h => ?_, congrArg _⟩
  have split := List.map_injective_iff.mpr (fun _ _ => String.ofList_inj.mp) h
  have whole := congrArg List.flatten split
  rwa [Text.flatten_splitTerminated, Text.flatten_splitTerminated, String.toList_inj] at whole

namespace Drift

theorem agrees_ofTexts_iff (path existing generated : String) :
    (ofTexts path existing generated).agrees = true ↔ existing = generated := by
  rw [← Text.terminatedLines_inj, ← Diff.changes_eq_nil_iff]
  simp [agrees, ofTexts]

/-- What the check of a file reports, by what there is to read. -/
def report (path generated : String) : Except FileError String → Except FileError Drift
  | .ok existing => .ok (.ofTexts path existing generated)
  | .error .notFound => .ok { missing := true }
  | .error error => .error error

theorem report_error {error : FileError} (other : error ≠ .notFound) (path generated : String) :
    report path generated (.error error) = .error error := by
  cases error with
  | notFound => exact absurd rfl other
  | _ => rfl

theorem ofFile_run (path generated : String) (tree : FileTree) :
    (ofFile path generated : StateM FileTree _) tree =
      (report path generated (tree.text path), tree) := by
  unfold ofFile
  rw [FileTree.run_bind, FileTree.readText_run]
  cases tree.text path with
  | ok existing => rfl
  | error error => cases error <;> rfl

/-- The check of a text file says whether the file is the generated code, character for character.
Where nothing is found there is no difference, but no agreement either. Whatever else keeps the file
from being read is passed on. -/
theorem ofFile_exact (path generated : String) (tree : FileTree) :
    (∀ existing : String, tree.read path = .ok existing.toUTF8 →
      ∃ drift, (ofFile path generated : StateM FileTree _) tree = (.ok drift, tree) ∧
        drift.missing = false ∧ (drift.agrees = true ↔ existing = generated)) ∧
    (tree.read path = .error .notFound →
      ∃ drift, (ofFile path generated : StateM FileTree _) tree = (.ok drift, tree) ∧
        drift.missing = true ∧ drift.changes = [] ∧ drift.diff = "" ∧ drift.agrees = false) ∧
    (∀ error, tree.read path = .error error → error ≠ .notFound →
      (ofFile path generated : StateM FileTree _) tree = (.error error, tree)) := by
  refine ⟨fun existing held => ?_, fun absent => ?_, fun error unread other => ?_⟩
  · refine ⟨.ofTexts path existing generated, ?_, rfl, agrees_ofTexts_iff path existing generated⟩
    rw [ofFile_run, FileTree.text_eq_ok.mpr held, report]
  · refine ⟨{ missing := true }, ?_, rfl, rfl, rfl, rfl⟩
    rw [ofFile_run, FileTree.text_eq_error absent, report]
  · rw [ofFile_run, FileTree.text_eq_error unread, report_error other]

/-- A directory with a file `a` and nothing else. -/
def singleFile (text : String) : FileTree where
  entries := [(["a"], .file text.toUTF8)]

/-- A carriage return more is reported, a file next to it is missing, and below a file is no place
for one. -/
theorem ofFile_exact_singleFile :
    (singleFile "x\r\n").read "a" = .ok "x\r\n".toUTF8 ∧
      (singleFile "x\r\n").read "b" = .error .notFound ∧
      (singleFile "x\r\n").read "a/b" = .error .notDirectory ∧
      (∃ drift, (ofFile "a" "x\n" : StateM FileTree _) (singleFile "x\r\n") =
        (.ok drift, singleFile "x\r\n") ∧ drift.agrees = false) ∧
      (∃ drift, (ofFile "b" "x\n" : StateM FileTree _) (singleFile "x\r\n") =
        (.ok drift, singleFile "x\r\n") ∧ drift.missing = true) ∧
      (ofFile "a/b" "x\n" : StateM FileTree _) (singleFile "x\r\n") =
        (.error .notDirectory, singleFile "x\r\n") := by
  have held : (singleFile "x\r\n").read "a" = .ok "x\r\n".toUTF8 := by rfl
  have absent : (singleFile "x\r\n").read "b" = .error .notFound := by rfl
  have unread : (singleFile "x\r\n").read "a/b" = .error .notDirectory := by rfl
  obtain ⟨stale, checked, _, equal⟩ :=
    (ofFile_exact "a" "x\n" (singleFile "x\r\n")).1 "x\r\n" held
  obtain ⟨missing, checked', isMissing, _⟩ :=
    (ofFile_exact "b" "x\n" (singleFile "x\r\n")).2.1 absent
  have passed := (ofFile_exact "a/b" "x\n" (singleFile "x\r\n")).2.2 _ unread (by decide)
  refine ⟨held, absent, unread, ⟨stale, checked, ?_⟩, ⟨missing, checked', isMissing⟩, passed⟩
  rw [Bool.eq_false_iff, Ne, equal]
  decide

/-- Where no file is, there need not be a report: below a file nothing can be looked for. -/
theorem exists_noFile_noReport :
    ¬ ∀ (path generated : String) (tree : FileTree), (∀ content, tree.read path ≠ .ok content) →
      ∃ drift, (ofFile path generated : StateM FileTree _) tree = (.ok drift, tree) ∧
        drift.missing = true ∧ drift.changes = [] ∧ drift.diff = "" ∧ drift.agrees = false := by
  intro always
  have unread : (singleFile "").read "a/b" = .error .notDirectory := by rfl
  obtain ⟨drift, checked, _⟩ := always "a/b" "" (singleFile "") (by simp [unread])
  rw [ofFile_run, FileTree.text_eq_error unread, report_error (by decide)] at checked
  cases checked

end Drift

end SchemaInterfaces
