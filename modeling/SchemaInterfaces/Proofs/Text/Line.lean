import Mathlib.Data.List.Basic
import SchemaInterfaces.Text.Line

/-!
# Terminated lines

What the lines of a text are when they keep what ends them: characters that are no line breaks with
an ending behind them, and perhaps a last line with nothing behind it, where a carriage return and a
line feed are one ending (`SplitsInto`). Splitting finds these lines and no others
(`splitTerminated_iff`), so lines that end fall apart again when they are put together.
-/
namespace SchemaInterfaces.Text

/-- A character that does not end a line. -/
def isInLine (c : Char) : Bool := c != '\n' && c != '\r'

/-- What a line can end with. -/
def lineEndings : List (List Char) := [['\n'], ['\r', '\n'], ['\r']]

/-- A line with its ending. -/
def IsEnded (line : List Char) : Prop :=
  ∃ body, (∀ c ∈ body, isInLine c = true) ∧ ∃ ending ∈ lineEndings, line = body ++ ending

/-- A line at the end of a text that has nothing behind it. -/
def IsOpen (line : List Char) : Prop :=
  line ≠ [] ∧ ∀ c ∈ line, isInLine c = true

/-- A text and its lines. No ending is cut in two. -/
inductive SplitsInto : (text : List Char) → (lines : List (List Char)) → Prop
  | nil : SplitsInto [] []
  | last {line : List Char} (unended : IsOpen line) : SplitsInto line [line]
  | cons {line rest : List Char} {lines : List (List Char)} (ended : IsEnded line)
    (uncut : line.getLast? = some '\r' → rest.head? ≠ some '\n') (more : SplitsInto rest lines) :
    SplitsInto (line ++ rest) (line :: lines)

theorem isInLine_iff {c : Char} : isInLine c = true ↔ c ≠ '\n' ∧ c ≠ '\r' := by
  simp [isInLine]

theorem IsEnded.cons {line : List Char} {c : Char} (inside : isInLine c = true)
    (ended : IsEnded line) : IsEnded (c :: line) := by
  obtain ⟨body, plain, ending, known, rfl⟩ := ended
  exact ⟨c :: body, List.forall_mem_cons.mpr ⟨inside, plain⟩, ending, known, rfl⟩

theorem IsEnded.ne_nil {line : List Char} (ended : IsEnded line) : line ≠ [] := by
  rintro rfl
  obtain ⟨body, _, ending, known, whole⟩ := ended
  rw [(List.append_eq_nil_iff.mp whole.symm).2] at known
  exact absurd known (by decide)

theorem IsEnded.getLast?_eq {line : List Char} (ended : IsEnded line) :
    line.getLast? = some '\n' ∨ line.getLast? = some '\r' := by
  obtain ⟨body, _, ending, known, rfl⟩ := ended
  simp only [lineEndings, List.mem_cons, List.not_mem_nil, or_false] at known
  obtain rfl | rfl | rfl := known <;> simp

theorem isEnded_concat {body : List Char} (inside : ∀ c ∈ body, isInLine c = true) :
    IsEnded (body ++ ['\n']) :=
  ⟨body, inside, ['\n'], by decide, rfl⟩

/-! ### Splitting -/

theorem splitTerminated_cons {c : Char} (inside : isInLine c = true) (rest : List Char) :
    splitTerminated (c :: rest) = consToFirst c (splitTerminated rest) := by
  obtain ⟨feed, carriage⟩ := isInLine_iff.mp inside
  simp [splitTerminated, feed, carriage]

theorem splitTerminated_append {line rest : List Char} (ended : IsEnded line)
    (uncut : line.getLast? = some '\r' → rest.head? ≠ some '\n') :
    splitTerminated (line ++ rest) = line :: splitTerminated rest := by
  obtain ⟨body, inside, ending, known, rfl⟩ := ended
  induction body with
  | nil =>
    simp only [lineEndings, List.mem_cons, List.not_mem_nil, or_false] at known
    obtain rfl | rfl | rfl := known
    · simp [splitTerminated]
    · simp [splitTerminated]
    · cases rest with
      | nil => rfl
      | cons c rest =>
        have other : c ≠ '\n' := fun same => uncut rfl (by rw [same]; rfl)
        simp [splitTerminated, other]
  | cons c body ih =>
    obtain ⟨first, others⟩ := List.forall_mem_cons.mp inside
    have nonempty : body ++ ending ≠ [] :=
      IsEnded.ne_nil ⟨body, others, ending, known, rfl⟩
    rw [List.cons_append, List.getLast?_cons_of_ne_nil nonempty] at uncut
    rw [List.cons_append, List.cons_append, splitTerminated_cons first, ih others uncut]
    rfl

theorem splitTerminated_of_isOpen {line : List Char} (unended : IsOpen line) :
    splitTerminated line = [line] := by
  obtain ⟨nonempty, inside⟩ := unended
  induction line with
  | nil => exact absurd rfl nonempty
  | cons c line ih =>
    obtain ⟨first, others⟩ := List.forall_mem_cons.mp inside
    rw [splitTerminated_cons first]
    cases line with
    | nil => rfl
    | cons d line =>
      rw [ih (List.cons_ne_nil _ _) others]
      rfl

/-- The cases are those of the splitting: an ending, or a character that joins the first line of
the rest. -/
theorem splitsInto_splitTerminated (text : List Char) : SplitsInto text (splitTerminated text) := by
  induction text using splitTerminated.induct with
  | case1 => exact .nil
  | case2 rest ih =>
    have ended : IsEnded ['\r', '\n'] := ⟨[], by simp, ['\r', '\n'], by decide, rfl⟩
    exact .cons ended (fun same => absurd same (by decide)) ih
  | case3 c rest apart ends ih =>
    rw [splitTerminated, if_pos ends]
    · refine @SplitsInto.cons [c] rest _ ?_ (fun carriage feed => ?_) ih
      · obtain rfl | rfl := ends
        · exact ⟨[], by simp, ['\n'], by decide, rfl⟩
        · exact ⟨[], by simp, ['\r'], by decide, rfl⟩
      · obtain ⟨more, whole⟩ := List.head?_eq_some_iff.mp feed
        exact apart more (Option.some.inj carriage) whole
    · exact apart
  | case4 c rest apart ends ih =>
    have inside : isInLine c = true := isInLine_iff.mpr (not_or.mp ends)
    rw [splitTerminated_cons inside]
    generalize splitTerminated rest = lines at ih
    cases ih with
    | nil => exact .last ⟨by simp, by simp [inside]⟩
    | last unended =>
      exact .last ⟨List.cons_ne_nil _ _, List.forall_mem_cons.mpr ⟨inside, unended.2⟩⟩
    | cons ended uncut more =>
      refine .cons (ended.cons inside) ?_ more
      rwa [List.getLast?_cons_of_ne_nil ended.ne_nil]

/-- Splitting finds the lines of a text. -/
theorem splitTerminated_iff {text : List Char} {lines : List (List Char)} :
    splitTerminated text = lines ↔ SplitsInto text lines := by
  constructor
  · rintro rfl
    exact splitsInto_splitTerminated text
  · intro split
    induction split with
    | nil => rfl
    | last unended => exact splitTerminated_of_isOpen unended
    | cons ended uncut _ ih => rw [splitTerminated_append ended uncut, ih]

/-- Lines that end and do not begin with a line feed come apart again. -/
theorem splitTerminated_flatten {lines : List (List Char)} (ended : ∀ line ∈ lines, IsEnded line)
    (apart : ∀ line ∈ lines, line.head? ≠ some '\n') : splitTerminated lines.flatten = lines := by
  induction lines with
  | nil => rfl
  | cons line lines ih =>
    obtain ⟨first, others⟩ := List.forall_mem_cons.mp ended
    obtain ⟨_, apart⟩ := List.forall_mem_cons.mp apart
    have noFeed : lines.flatten.head? ≠ some '\n' := by
      cases lines with
      | nil => simp
      | cons next lines =>
        rw [List.flatten_cons, List.head?_append_of_ne_nil _ (others next (.head _)).ne_nil]
        exact apart next (.head _)
    rw [List.flatten_cons, splitTerminated_append first fun _ => noFeed, ih others apart]

theorem SplitsInto.isEnded_or_isOpen {text line : List Char} {lines : List (List Char)}
    (split : SplitsInto text lines) (member : line ∈ lines) : IsEnded line ∨ IsOpen line := by
  induction split with
  | nil => cases member
  | last unended =>
    rw [List.mem_singleton.mp member]
    exact .inr unended
  | cons ended _ _ ih =>
    obtain rfl | member := List.mem_cons.mp member
    · exact .inl ended
    · exact ih member

end SchemaInterfaces.Text
