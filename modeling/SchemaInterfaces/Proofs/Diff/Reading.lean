import Mathlib.Data.List.Basic
import SchemaInterfaces.Proofs.Diff.Grouping
import SchemaInterfaces.Proofs.Number.Decimal
import SchemaInterfaces.Proofs.Text.Line

/-!
# Reading a unified diff

What the text of a unified diff says to somebody who only knows the format: its lines fall into
hunks, a header names the lines that its hunk covers, the first character of any other line tells
what happens to it, and a marker says that the line before it has no ending. The text of a diff is
read as the hunks that it was made from (`readDiff?_unifiedText`).
-/
namespace SchemaInterfaces.Diff

open Text

/-! ### The format -/

/-- The range of old lines in a header, as the number of old lines in front of it and the number of
lines in it. A range of one line has no count, and an empty one is named by the line before it. -/
def readRange? (range : List Char) : Option (Nat × Nat) :=
  match range.splitOn ',' with
  | [first] => (Digits.natural? 10 first).map fun n => (n - 1, 1)
  | [first, count] => do
    let n ← Digits.natural? 10 first
    let count ← Digits.natural? 10 count
    return (if count = 0 then n else n - 1, count)
  | _ => none

/-- The range of old lines that a header names. -/
def readHeader? (line : List Char) : Option (Nat × Nat) :=
  match line.splitOn ' ' with
  | [['@', '@'], '-' :: old, '+' :: _, ['@', '@', '\n']] => readRange? old
  | _ => none

/-- What has been read of a diff from its end on: whole hunks, the lines in front of them, and
whether the next line up has no ending. -/
structure Reading where
  hunks : List Hunk
  lines : List (EditKind × String)
  unended : Bool

namespace Reading

def start : Reading := ⟨[], [], false⟩

def add (kind : EditKind) (line : List Char) (reading : Reading) : Reading :=
  let text := if reading.unended then line.takeWhile isInLine else line
  { reading with lines := (kind, String.ofList text) :: reading.lines, unended := false }

/-- Reads one line more. -/
def line? (line : List Char) (reading : Reading) : Option Reading :=
  match line with
  | ' ' :: text => some (reading.add .keep text)
  | '-' :: text => some (reading.add .delete text)
  | '+' :: text => some (reading.add .insert text)
  | '\\' :: _ => some { reading with unended := true }
  | header =>
    if reading.unended then none
    else (readHeader? header).map fun (start, count) =>
      ⟨⟨start, count, reading.lines⟩ :: reading.hunks, [], false⟩

end Reading

/-- The hunks that lines spell. -/
def readHunks? (lines : List (List Char)) : Option (List Hunk) :=
  match lines.foldrM Reading.line? .start with
  | some ⟨hunks, [], false⟩ => some hunks
  | _ => none

/-- The hunks of a unified diff that begins with the names of the two texts. -/
def readDiff? (oldName newName diff : String) : Option (List Hunk) :=
  (("--- " ++ oldName ++ "\n+++ " ++ newName ++ "\n").toList.isPrefixOf? diff.toList).bind
    fun body => readHunks? (splitTerminated body)

/-! ### Ranges -/

theorem not_mem_toDigits {c : Char} (other : c.isDigit = false) (n : Nat) :
    c ∉ Nat.toDigits 10 n := fun member => by
  rw [Decimal.isDigit_of_mem_toDigits member] at other
  cases other

/-- The numbers of a range. -/
def rangeNumbers (start stop : Nat) : List Nat :=
  if stop - start = 1 then [start + 1]
  else [if stop - start = 0 then start else start + 1, stop - start]

theorem toList_rangeText (start stop : Nat) :
    (rangeText start stop).toList =
      [','].intercalate ((rangeNumbers start stop).map (Nat.toDigits 10)) := by
  by_cases one : stop - start = 1
  · simp [rangeText, rangeNumbers, one]
  · by_cases none : stop - start = 0
    · simp [rangeText, rangeNumbers, none]
    · simp [rangeText, rangeNumbers, one, none]

theorem splitOn_rangeText (start stop : Nat) :
    (rangeText start stop).toList.splitOn ',' =
      (rangeNumbers start stop).map (Nat.toDigits 10) := by
  rw [toList_rangeText, List.splitOn_intercalate]
  · rintro _ member
    obtain ⟨n, _, rfl⟩ := List.mem_map.mp member
    exact not_mem_toDigits rfl n
  · unfold rangeNumbers
    split <;> simp

theorem readRange?_rangeText (start stop : Nat) :
    readRange? (rangeText start stop).toList = some (start, stop - start) := by
  rw [readRange?, splitOn_rangeText, rangeNumbers]
  by_cases one : stop - start = 1
  · simp [one, Digits.natural?_toDigits]
  · rw [if_neg one]
    by_cases none : stop - start = 0
    · have zero : Digits.natural? 10 ['0'] = some 0 := Digits.natural?_toDigits 0
      simp [none, Digits.natural?_toDigits, zero]
    · simp [none, Digits.natural?_toDigits]

/-- Ranges are spelled with digits and commas. -/
theorem mem_rangeText {start stop : Nat} {c : Char} (member : c ∈ (rangeText start stop).toList) :
    c = ',' ∨ c.isDigit = true := by
  rw [toList_rangeText] at member
  have spelled : c = ',' ∨ ∃ n, c ∈ Nat.toDigits 10 n := by
    unfold rangeNumbers at member
    split at member
    next => exact .inr ⟨_, by simpa using member⟩
    next =>
      simp only [List.map_cons, List.map_nil, List.intercalate_cons_cons,
        List.intercalate_singleton, List.mem_append, List.mem_singleton] at member
      obtain (first | comma) | count := member
      · exact .inr ⟨_, first⟩
      · exact .inl comma
      · exact .inr ⟨_, count⟩
  exact spelled.imp_right fun ⟨n, digit⟩ => Decimal.isDigit_of_mem_toDigits digit

/-! ### Headers -/

/-- The header of the hunk of a group between two blocks. -/
def headerText (first last : Block) : String :=
  "@@ -" ++ rangeText first.oldStart last.oldEnd ++ " +" ++
    rangeText first.newStart last.newEnd ++ " @@\n"

theorem toList_headerText (first last : Block) :
    (headerText first last).toList = [' '].intercalate [['@', '@'],
      '-' :: (rangeText first.oldStart last.oldEnd).toList,
      '+' :: (rangeText first.newStart last.newEnd).toList, ['@', '@', '\n']] := by
  simp [headerText]

theorem readHeader?_headerText (first last : Block) :
    readHeader? (headerText first last).toList =
      some (first.oldStart, last.oldEnd - first.oldStart) := by
  have blank (start stop : Nat) : ' ' ∉ (rangeText start stop).toList := fun member =>
    absurd (mem_rangeText member) (by decide)
  rw [readHeader?, toList_headerText, List.splitOn_intercalate]
  · exact readRange?_rangeText _ _
  · simp [blank]
  · exact List.cons_ne_nil _ _

theorem isEnded_headerText (first last : Block) : IsEnded (headerText first last).toList := by
  have range (start stop : Nat) : ∀ c ∈ (rangeText start stop).toList, isInLine c = true := by
    intro c member
    rw [isInLine_iff]
    obtain rfl | digit := mem_rangeText member
    · decide
    · constructor
      all_goals
        rintro rfl
        exact absurd digit (by decide)
  have whole : (headerText first last).toList =
      ("@@ -".toList ++ (rangeText first.oldStart last.oldEnd).toList ++ " +".toList ++
        (rangeText first.newStart last.newEnd).toList ++ " @@".toList) ++ ['\n'] := by
    simp [headerText]
  rw [whole]
  refine isEnded_concat ?_
  simp only [List.forall_mem_append]
  exact ⟨⟨⟨⟨List.all_eq_true.mp rfl, range _ _⟩, List.all_eq_true.mp rfl⟩, range _ _⟩,
    List.all_eq_true.mp rfl⟩

/-! ### Lines -/

/-- A line, with an ending or without. -/
def IsLine (line : String) : Prop := IsEnded line.toList ∨ IsOpen line.toList

/-- The character in front of a line. -/
def mark : EditKind → Char
  | .keep => ' '
  | .delete => '-'
  | .insert => '+'

/-- What is said of a line without an ending. -/
def noEnding : List Char := "\\ No newline at end of file\n".toList

/-- The lines of a diff that show a line of a hunk. -/
def shownLines (shown : EditKind × String) : List (List Char) :=
  if shown.2.toList.getLast? = some '\n' ∨ shown.2.toList.getLast? = some '\r' then
    [mark shown.1 :: shown.2.toList]
  else [mark shown.1 :: (shown.2.toList ++ ['\n']), noEnding]

theorem toList_lineText (kind : EditKind) (line : String) :
    (lineText (String.singleton (mark kind)) line).toList = (shownLines (kind, line)).flatten := by
  have nothing : "\n\\ No newline at end of file\n".toList = '\n' :: noEnding := by rfl
  unfold lineText shownLines
  by_cases ended : line.toList.getLast? = some '\n' ∨ line.toList.getLast? = some '\r'
  · simp only [ended, if_true]
    simp
  · simp only [ended, if_false, String.toList_append, nothing]
    simp

theorem shownLines_of_isEnded {line : String} (h : IsEnded line.toList) (kind : EditKind) :
    shownLines (kind, line) = [mark kind :: line.toList] :=
  if_pos h.getLast?_eq

theorem shownLines_of_isOpen {line : String} (h : IsOpen line.toList) (kind : EditKind) :
    shownLines (kind, line) = [mark kind :: (line.toList ++ ['\n']), noEnding] := by
  refine if_neg ?_
  rintro (last | last)
  all_goals exact absurd (h.2 _ (List.mem_of_getLast? last)) (by decide)

/-- A line that ends and can be told apart from the one before it. -/
def IsDiffLine (line : List Char) : Prop := IsEnded line ∧ line.head? ≠ some '\n'

theorem isInLine_mark (kind : EditKind) : isInLine (mark kind) = true := by
  cases kind <;> rfl

theorem isDiffLine_marked (kind : EditKind) {line : List Char} (h : IsEnded line) :
    IsDiffLine (mark kind :: line) :=
  ⟨h.cons (isInLine_mark kind), by cases kind <;> simp [mark]⟩

theorem isDiffLine_noEnding : IsDiffLine noEnding := by
  have whole : noEnding = "\\ No newline at end of file".toList ++ ['\n'] := by rfl
  refine ⟨?_, by decide⟩
  rw [whole]
  exact isEnded_concat (List.all_eq_true.mp rfl)

theorem isDiffLine_of_mem_shownLines {shown : EditKind × String} {line : List Char}
    (h : IsLine shown.2) (member : line ∈ shownLines shown) : IsDiffLine line := by
  obtain ⟨kind, text⟩ := shown
  obtain ended | unended := h
  · rw [shownLines_of_isEnded ended] at member
    rw [List.mem_singleton.mp member]
    exact isDiffLine_marked kind ended
  · rw [shownLines_of_isOpen unended] at member
    obtain rfl | rfl := List.mem_pair.mp member
    · exact isDiffLine_marked kind (isEnded_concat unended.2)
    · exact isDiffLine_noEnding

theorem Reading.line?_mark (kind : EditKind) (line : List Char) (reading : Reading) :
    reading.line? (mark kind :: line) = some (reading.add kind line) := by
  cases kind <;> rfl

theorem Reading.line?_noEnding (reading : Reading) :
    reading.line? noEnding = some { reading with unended := true } := rfl

/-- A shown line is read with what happens to it. -/
theorem foldrM_shownLines {shown : EditKind × String} (h : IsLine shown.2) (hunks : List Hunk)
    (lines : List (EditKind × String)) :
    (shownLines shown).foldrM Reading.line? ⟨hunks, lines, false⟩ =
      some ⟨hunks, shown :: lines, false⟩ := by
  obtain ⟨kind, text⟩ := shown
  obtain ended | unended := h
  · rw [shownLines_of_isEnded ended, List.foldrM_cons, List.foldrM_nil, pure_bind,
      Reading.line?_mark]
    simp [Reading.add]
  · have body : (text.toList ++ ['\n']).takeWhile isInLine = text.toList := by
      rw [List.takeWhile_append_of_pos unended.2]
      simp [isInLine]
    rw [shownLines_of_isOpen unended, List.foldrM_cons, List.foldrM_cons, List.foldrM_nil,
      pure_bind, Reading.line?_noEnding, Option.bind_eq_bind, Option.bind_some,
      Reading.line?_mark]
    simp [Reading.add, body]

theorem foldrM_flatMap_shownLines {lines : List (EditKind × String)}
    (h : ∀ shown ∈ lines, IsLine shown.2) (hunks : List Hunk) (behind : List (EditKind × String)) :
    (lines.flatMap shownLines).foldrM Reading.line? ⟨hunks, behind, false⟩ =
      some ⟨hunks, lines ++ behind, false⟩ := by
  induction lines with
  | nil => rfl
  | cons shown lines ih =>
    obtain ⟨first, others⟩ := List.forall_mem_cons.mp h
    rw [List.flatMap_cons, List.foldrM_append, ih others]
    exact foldrM_shownLines first hunks (lines ++ behind)

/-! ### Hunks -/

theorem toList_text (block : Block) :
    block.text.toList = (block.marked.flatMap shownLines).flatten := by
  have shown (kind : EditKind) (lines : List String) :
      (String.join (lines.map (lineText (String.singleton (mark kind))))).toList =
        ((lines.map (kind, ·)).flatMap shownLines).flatten := by
    induction lines with
    | nil => rfl
    | cons line lines ih =>
      rw [List.map_cons, String.join_cons, String.toList_append, toList_lineText, ih]
      simp
  cases block with
  | keep oldStart newStart lines => exact shown .keep lines
  | change oldStart newStart removed added =>
    rw [Block.text, String.toList_append, Block.marked, List.flatMap_append, List.flatten_append]
    exact congrArg₂ _ (shown .delete removed) (shown .insert added)

/-- The lines of a diff that show the hunk of a group between its first and its last block. -/
def hunkLines (first last : Block) (group : List Block) : List (List Char) :=
  (headerText first last).toList :: (Hunk.ofGroup group).lines.flatMap shownLines

section

variable {first last : Block} {group : List Block}

theorem toList_hunkText (begins : group.head? = some first) (ends : group.getLast? = some last) :
    (hunkText group).toList = (hunkLines first last group).flatten := by
  have body (group : List Block) : (String.join (group.map Block.text)).toList =
      ((group.flatMap Block.marked).flatMap shownLines).flatten := by
    induction group with
    | nil => rfl
    | cons block group ih =>
      rw [List.map_cons, String.join_cons, String.toList_append, toList_text, ih]
      simp
  rw [hunkLines, List.flatten_cons, Hunk.ofGroup, ← body, ← String.toList_append, headerText]
  simp only [hunkText, begins, ends]

theorem isDiffLine_of_mem_hunkLines (h : ∀ shown ∈ (Hunk.ofGroup group).lines, IsLine shown.2)
    {line : List Char} (member : line ∈ hunkLines first last group) : IsDiffLine line := by
  obtain rfl | member := List.mem_cons.mp member
  · exact ⟨isEnded_headerText first last, by simp [headerText]⟩
  · obtain ⟨shown, shows, member⟩ := List.mem_flatMap.mp member
    exact isDiffLine_of_mem_shownLines (h shown shows) member

/-- The hunk of a group is read in front of those behind. -/
theorem foldrM_hunkLines (begins : group.head? = some first) (ends : group.getLast? = some last)
    (h : ∀ shown ∈ (Hunk.ofGroup group).lines, IsLine shown.2) (hunks : List Hunk) :
    (hunkLines first last group).foldrM Reading.line? ⟨hunks, [], false⟩ =
      some ⟨Hunk.ofGroup group :: hunks, [], false⟩ := by
  have named : readHeader? (headerText first last).toList =
      some ((Hunk.ofGroup group).start, (Hunk.ofGroup group).count) := by
    rw [readHeader?_headerText, Hunk.ofGroup, begins, ends]
    rfl
  rw [hunkLines, List.foldrM_cons, foldrM_flatMap_shownLines h, Option.bind_eq_bind,
    Option.bind_some, List.append_nil]
  obtain ⟨rest, whole⟩ : ∃ rest, (headerText first last).toList = '@' :: rest :=
    ⟨_, by rw [toList_headerText]; rfl⟩
  rw [whole] at named ⊢
  simp [Reading.line?, named]

end

theorem ne_nil_of_mem_groupBlocks {group blocks shown : List Block}
    (member : shown ∈ groupBlocks group blocks) : shown ≠ [] := by
  fun_induction groupBlocks group blocks with
  | case1 | case2 => cases member
  | case3 group some _ =>
    rw [List.mem_singleton.mp member]
    exact fun none => some (List.reverse_eq_nil_iff.mp none)
  | case4 group rest oldStart newStart lines long ih =>
    obtain rfl | member := List.mem_cons.mp member
    · simp
    · exact ih member
  | case5 group rest oldStart newStart lines _ ih => exact ih member
  | case6 group rest oldStart newStart removed added ih => exact ih member

/-- The texts of groups are read as their hunks. -/
theorem exists_lines_of_groups {groups : List (List Block)} (some : ∀ group ∈ groups, group ≠ [])
    (h : ∀ group ∈ groups, ∀ shown ∈ (Hunk.ofGroup group).lines, IsLine shown.2) :
    ∃ lines : List (List Char), (String.join (groups.map hunkText)).toList = lines.flatten ∧
      (∀ line ∈ lines, IsDiffLine line) ∧
      lines.foldrM Reading.line? .start = .some ⟨groups.map Hunk.ofGroup, [], false⟩ := by
  induction groups with
  | nil => exact ⟨[], rfl, by simp, rfl⟩
  | cons group groups ih =>
    obtain ⟨nonempty, some⟩ := List.forall_mem_cons.mp some
    obtain ⟨first, others⟩ := List.forall_mem_cons.mp h
    obtain ⟨lines, text, parts, read⟩ := ih some others
    have begins := List.head?_eq_some_head nonempty
    have ends := List.getLast?_eq_some_getLast nonempty
    refine ⟨hunkLines (group.head nonempty) (group.getLast nonempty) group ++ lines, ?_,
      List.forall_mem_append.mpr ⟨fun line => isDiffLine_of_mem_hunkLines first, parts⟩, ?_⟩
    · rw [List.map_cons, String.join_cons, String.toList_append, toList_hunkText begins ends, text,
        List.flatten_append]
    · rw [List.foldrM_append, read]
      exact foldrM_hunkLines begins ends first _

/-- A unified diff is read as its hunks. -/
theorem readDiff?_unifiedText (oldName newName : String) {blocks : List Block}
    (h : ∀ hunk ∈ (groupBlocks [] (trimEnds blocks)).map Hunk.ofGroup, ∀ shown ∈ hunk.lines,
      IsLine shown.2)
    (changed : groupBlocks [] (trimEnds blocks) ≠ []) :
    readDiff? oldName newName (unifiedText oldName newName blocks) =
      some ((groupBlocks [] (trimEnds blocks)).map Hunk.ofGroup) := by
  obtain ⟨lines, text, parts, read⟩ := exists_lines_of_groups
    (fun _ member => ne_nil_of_mem_groupBlocks member)
    (fun group member => h _ (List.mem_map_of_mem member))
  have split : splitTerminated lines.flatten = lines :=
    splitTerminated_flatten (fun line member => (parts line member).1)
      fun line member => (parts line member).2
  have body : ("--- " ++ oldName ++ "\n+++ " ++ newName ++ "\n").toList.isPrefixOf?
      (unifiedText oldName newName blocks).toList = some lines.flatten := by
    rw [List.isPrefixOf?_eq_some_iff_append_eq, unifiedText, ← text, ← String.toList_append]
    simp [changed]
  rw [readDiff?, body, Option.bind_some, split, readHunks?, read]

end SchemaInterfaces.Diff
