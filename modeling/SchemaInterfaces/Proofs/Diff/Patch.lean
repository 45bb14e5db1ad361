import SchemaInterfaces.Proofs.Diff.Alignment

/-!
# Patches

A hunk says from which line of the old text on it stands and how many lines it replaces, and shows
lines that are kept, removed or added. Hunks patch a text (`Patches`) if the old lines they show
stand where they say. The lines that their headers name are another matter (`replaceRanges`): they
are the right ones if every header counts the old lines that its hunk shows
(`join_replaceRanges_eq_iff`).
-/
namespace SchemaInterfaces.Diff

/-- A part of a unified diff: the number of old lines in front, the number of old lines that its
header counts, and its lines with what happens to them. -/
structure Hunk where
  start : Nat
  count : Nat
  lines : List (EditKind × String)
  deriving DecidableEq, Repr

namespace Hunk

/-- The old lines that a hunk shows. -/
def oldLines (hunk : Hunk) : List String :=
  (hunk.lines.filter (·.1 ≠ .insert)).map (·.2)

/-- The lines that stand there instead. -/
def newLines (hunk : Hunk) : List String :=
  (hunk.lines.filter (·.1 ≠ .delete)).map (·.2)

/-- What happens to a line, if anything. -/
def change? : EditKind × String → Option (ChangeKind × String)
  | (.keep, _) => none
  | (.delete, line) => some (.removed, line)
  | (.insert, line) => some (.added, line)

/-- The changes that a hunk shows. -/
def changes (hunk : Hunk) : List (ChangeKind × String) := hunk.lines.filterMap change?

/-- The header counts the old lines. -/
def IsCounted (hunk : Hunk) : Prop := hunk.count = hunk.oldLines.length

instance (hunk : Hunk) : Decidable hunk.IsCounted := inferInstanceAs (Decidable (_ = _))

/-- The last line of a hunk is an added one. -/
def EndsAdding (hunk : Hunk) : Prop := ∃ line, hunk.lines.getLast? = some (.insert, line)

end Hunk

/-- From a line of the old text on, hunks lead to the new text: each stands where it says, with
lines in front of it that stay. -/
inductive Patches : (line : Nat) → (hunks : List Hunk) → (old new : List String) → Prop
  | nil (line : Nat) (rest : List String) : Patches line [] rest rest
  | cons {line : Nat} {hunk : Hunk} {hunks : List Hunk} {old new : List String}
    (gap : List String) (stands : hunk.start = line + gap.length)
    (more : Patches (hunk.start + hunk.oldLines.length) hunks old new) :
    Patches line (hunk :: hunks) (gap ++ (hunk.oldLines ++ old)) (gap ++ (hunk.newLines ++ new))

namespace Patches

variable {line : Nat} {hunks : List Hunk} {old new : List String}

/-- More lines in front of the first hunk stay. -/
theorem inFront (gap : List String) (h : Patches (line + gap.length) hunks old new) :
    Patches line hunks (gap ++ old) (gap ++ new) := by
  cases h with
  | nil _ rest => exact .nil line _
  | cons gap' stands more =>
    rw [← List.append_assoc, ← List.append_assoc gap]
    exact .cons (gap ++ gap') (by rw [List.length_append, stands, Nat.add_assoc]) more

/-- More lines behind the last hunk stay. -/
theorem behind (h : Patches line hunks old new) (back : List String) :
    Patches line hunks (old ++ back) (new ++ back) := by
  induction h with
  | nil line rest => exact .nil line _
  | cons gap stands _ ih =>
    simp only [List.append_assoc]
    exact .cons gap stands ih

/-- A line of a hunk is one of the old text or of the new one. -/
theorem mem_of_mem_lines (h : Patches line hunks old new) {hunk : Hunk} (member : hunk ∈ hunks)
    {shown : EditKind × String} (shows : shown ∈ hunk.lines) : shown.2 ∈ old ∨ shown.2 ∈ new := by
  induction h with
  | nil => cases member
  | @cons line first hunks old new gap _ _ ih =>
    obtain rfl | member := List.mem_cons.mp member
    · by_cases inserts : shown.1 = .insert
      · have added : shown.2 ∈ hunk.newLines :=
          List.mem_map_of_mem (List.mem_filter.mpr ⟨shows, by simp [inserts]⟩)
        simp [added]
      · have covered : shown.2 ∈ hunk.oldLines :=
          List.mem_map_of_mem (List.mem_filter.mpr ⟨shows, by simp [inserts]⟩)
        simp [covered]
    · obtain old | new := ih member
      · simp [old]
      · simp [new]

theorem mem_of_mem_changes (h : Patches line hunks old new) {hunk : Hunk} (member : hunk ∈ hunks)
    {change : ChangeKind × String} (shows : change ∈ hunk.changes) :
    change.2 ∈ old ∨ change.2 ∈ new := by
  obtain ⟨shown, among, changes⟩ := List.mem_filterMap.mp shows
  have same : shown.2 = change.2 := by
    obtain ⟨kind, text⟩ := shown
    cases kind <;> cases changes <;> rfl
  exact same ▸ h.mem_of_mem_lines member among

end Patches

/-- Replaces the lines that the headers of hunks name by the new lines of the hunks, if the text has
these lines. The text begins at line `line`. -/
def replaceRanges (line : Nat) : List Hunk → List String → Option (List String)
  | [], old => some old
  | hunk :: hunks, old =>
    if line ≤ hunk.start ∧ hunk.start + hunk.count ≤ line + old.length then
      (replaceRanges (hunk.start + hunk.count) hunks
        (old.drop (hunk.start + hunk.count - line))).map
          fun rest => old.take (hunk.start - line) ++ (hunk.newLines ++ rest)
    else none

/-- Where a hunk stands behind lines that stay, its own lines are replaced if they are counted. -/
theorem replaceRanges_cons {line : Nat} {hunk : Hunk} (counted : hunk.IsCounted)
    {gap : List String} (stands : hunk.start = line + gap.length) (hunks : List Hunk)
    (old : List String) :
    replaceRanges line (hunk :: hunks) (gap ++ (hunk.oldLines ++ old)) =
      (replaceRanges (hunk.start + hunk.oldLines.length) hunks old).map
        fun rest => gap ++ (hunk.newLines ++ rest) := by
  have fits : line ≤ hunk.start ∧
      hunk.start + hunk.count ≤ line + (gap ++ (hunk.oldLines ++ old)).length := by
    simp only [List.length_append, stands, counted.symm]
    omega
  have behind : hunk.start + hunk.count - line = (gap ++ hunk.oldLines).length := by
    rw [List.length_append, stands, ← counted]
    omega
  have front : hunk.start - line = gap.length := by omega
  rw [replaceRanges, if_pos fits, behind, front, List.take_left, ← List.append_assoc,
    List.drop_left, ← counted]

theorem eq_nil_of_join_eq_empty {lines : List String} (full : ∀ line ∈ lines, line ≠ "")
    (empty : String.join lines = "") : lines = [] := by
  cases lines with
  | nil => rfl
  | cons line lines =>
    rw [String.join_cons, String.append_eq_empty_iff] at empty
    exact absurd empty.1 (full line List.mem_cons_self)

/-- How many lines of a text are left out can be seen from what is left. -/
theorem eq_of_join_drop {lines : List String} (full : ∀ line ∈ lines, line ≠ "") {a b : Nat}
    (fits : a ≤ lines.length) (fits' : b ≤ lines.length)
    (same : String.join (lines.drop a) = String.join (lines.drop b)) : a = b := by
  wlog order : a ≤ b
  · exact (this full fits' fits same.symm (by omega)).symm
  have split : lines.drop a = (lines.drop a).take (b - a) ++ lines.drop b := by
    have rest : (lines.drop a).drop (b - a) = lines.drop b := by
      rw [List.drop_drop, Nat.add_sub_cancel' order]
    rw [← rest, List.take_append_drop]
  rw [split, String.join_append, String.append_eq_right_iff] at same
  have none := eq_nil_of_join_eq_empty
    (fun line member => full line (List.mem_of_mem_drop (List.mem_of_mem_take member))) same
  have size := congrArg List.length none
  rw [List.length_take, List.length_drop, List.length_nil] at size
  omega

/-- A single hunk that replaces the lines that its header names and leads to the new text counts its
old lines. -/
theorem isCounted_of_replaceRanges {line : Nat} {hunk : Hunk} {gap rest : List String}
    (stands : hunk.start = line + gap.length) (full : ∀ line ∈ hunk.oldLines ++ rest, line ≠ "")
    (replaced : (replaceRanges line [hunk] (gap ++ (hunk.oldLines ++ rest))).map String.join =
      some (String.join (gap ++ (hunk.newLines ++ rest)))) : hunk.IsCounted := by
  rw [replaceRanges] at replaced
  split at replaced
  next fits =>
    have front : hunk.start - line = gap.length := by omega
    have behind : hunk.start + hunk.count - line = gap.length + hunk.count := by omega
    have same : String.join ((hunk.oldLines ++ rest).drop hunk.count) =
        String.join ((hunk.oldLines ++ rest).drop hunk.oldLines.length) := by
      rw [front, behind] at replaced
      simpa [replaceRanges] using replaced
    simp only [List.length_append] at fits
    exact eq_of_join_drop full (by simp only [List.length_append]; omega) (by simp) same
  next => cases replaced

/-- Patches that replace the lines that their headers name lead to the new text exactly if the
headers count right. All but the last are taken to do so. -/
theorem join_replaceRanges_eq_iff {line : Nat} {hunks : List Hunk} {old new : List String}
    (h : Patches line hunks old new) (full : ∀ line ∈ old, line ≠ "")
    (counted : ∀ hunk ∈ hunks.dropLast, hunk.IsCounted) :
    (replaceRanges line hunks old).map String.join = some (String.join new) ↔
      ∀ hunk ∈ hunks, hunk.IsCounted := by
  induction h with
  | nil line rest => simp [replaceRanges]
  | @cons line hunk hunks old new gap stands more ih =>
    obtain ⟨_, full⟩ := List.forall_mem_append.mp full
    cases hunks with
    | nil =>
      cases more
      rw [List.forall_mem_singleton]
      refine ⟨isCounted_of_replaceRanges stands full, fun right => ?_⟩
      rw [replaceRanges_cons right stands]
      rfl
    | cons next hunks =>
      obtain ⟨right, counted⟩ := List.forall_mem_cons.mp counted
      obtain ⟨_, full⟩ := List.forall_mem_append.mp full
      rw [List.forall_mem_cons, and_iff_right right, ← ih full counted,
        replaceRanges_cons right stands]
      simp

end SchemaInterfaces.Diff
