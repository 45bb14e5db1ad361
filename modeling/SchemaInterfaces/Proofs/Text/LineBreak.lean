import Mathlib.Data.List.Basic
import SchemaInterfaces.Text.Line

/-!
# Lines between line breaks

What the lines of a text are when they do not keep what ends them: a line break is a line feed
together with a carriage return right before it, and one at the very end adds no line
(`BreaksInto`). Breaking a text finds these lines and no others (`splitLines_iff`), so lines without
a line feed, each with one put behind it, come apart again as long as none ends in a carriage
return.
-/
namespace SchemaInterfaces.Text

/-- A text and the lines between its line breaks. A carriage return that no line feed follows is
part of its line. -/
inductive BreaksInto : (text : List Char) → (lines : List (List Char)) → Prop
  | nil : BreaksInto [] []
  | last {line : List Char} (nonempty : line ≠ []) (inside : '\n' ∉ line) : BreaksInto line [line]
  | feed {line rest : List Char} {lines : List (List Char)} (inside : '\n' ∉ line)
    (uncut : line.getLast? ≠ some '\r') (more : BreaksInto rest lines) :
    BreaksInto (line ++ '\n' :: rest) (line :: lines)
  | returnFeed {line rest : List Char} {lines : List (List Char)} (inside : '\n' ∉ line)
    (more : BreaksInto rest lines) : BreaksInto (line ++ '\r' :: '\n' :: rest) (line :: lines)

/-! ### Breaking -/

theorem splitLines_cons {c : Char} {rest : List Char} (other : c ≠ '\n')
    (uncut : c = '\r' → rest.head? ≠ some '\n') :
    splitLines (c :: rest) = consToFirst c (splitLines rest) := by
  rw [splitLines, if_neg other]
  rintro more carriage rfl
  exact uncut carriage rfl

/-- Characters that are no line feed go in front of the first line of what follows them. -/
theorem splitLines_append {line : List Char} (inside : '\n' ∉ line) {tail : List Char}
    (uncut : line.getLast? = some '\r' → tail.head? ≠ some '\n') :
    splitLines (line ++ tail) = line.foldr consToFirst (splitLines tail) := by
  induction line with
  | nil => rfl
  | cons c line ih =>
    obtain ⟨other, noFeed⟩ := List.ne_and_not_mem_of_not_mem_cons inside
    cases line with
    | nil => exact splitLines_cons other.symm fun carriage => uncut (carriage ▸ rfl)
    | cons d line =>
      have apart : c = '\r' → (d :: line ++ tail).head? ≠ some '\n' := fun _ feed =>
        List.ne_of_not_mem_cons noFeed (Option.some.inj feed).symm
      rw [List.getLast?_cons_cons] at uncut
      rw [List.cons_append, splitLines_cons other.symm apart, ih noFeed uncut]
      rfl

theorem foldr_consToFirst_cons (line first : List Char) (lines : List (List Char)) :
    line.foldr consToFirst (first :: lines) = (line ++ first) :: lines := by
  induction line with
  | nil => rfl
  | cons c line ih => rw [List.foldr_cons, ih, consToFirst, List.cons_append]

theorem foldr_consToFirst_nil {line : List Char} (nonempty : line ≠ []) :
    line.foldr consToFirst [] = [line] := by
  obtain ⟨front, c, rfl⟩ := List.eq_nil_or_concat line |>.resolve_left nonempty
  rw [List.concat_eq_append, List.foldr_append]
  exact foldr_consToFirst_cons front [c] []

/-- The cases are those of the breaking: a break, or a character that joins the first line of the
rest. -/
theorem breaksInto_splitLines (text : List Char) : BreaksInto text (splitLines text) := by
  fun_induction splitLines text with
  | case1 => exact .nil
  | case2 rest ih => exact @BreaksInto.returnFeed [] rest _ List.not_mem_nil ih
  | case3 rest _ ih => exact @BreaksInto.feed [] rest _ List.not_mem_nil (by simp) ih
  | case4 c rest apart other ih =>
    generalize splitLines rest = lines at ih
    have inside {line : List Char} (noFeed : '\n' ∉ line) : '\n' ∉ c :: line :=
      List.not_mem_cons_of_ne_of_not_mem (Ne.symm other) noFeed
    cases ih with
    | nil => exact .last (List.cons_ne_nil _ _) (inside List.not_mem_nil)
    | last _ noFeed => exact .last (List.cons_ne_nil _ _) (inside noFeed)
    | @feed line rest lines noFeed uncut more =>
      refine @BreaksInto.feed (c :: line) rest _ (inside noFeed) ?_ more
      cases line with
      | nil => exact fun carriage => apart rest (Option.some.inj carriage) rfl
      | cons d line => rwa [List.getLast?_cons_cons]
    | @returnFeed line rest lines noFeed more =>
      exact @BreaksInto.returnFeed (c :: line) rest _ (inside noFeed) more

/-- Breaking finds the lines of a text. -/
theorem splitLines_iff {text : List Char} {lines : List (List Char)} :
    splitLines text = lines ↔ BreaksInto text lines := by
  constructor
  · rintro rfl
    exact breaksInto_splitLines text
  · intro breaks
    induction breaks with
    | nil => rfl
    | @last line nonempty inside =>
      rw [← List.append_nil line, splitLines_append inside (by simp), List.append_nil]
      exact foldr_consToFirst_nil nonempty
    | @feed line rest lines inside uncut _ ih =>
      have first : splitLines ('\n' :: rest) = [] :: lines := by simp [splitLines, ih]
      rw [splitLines_append inside fun carriage => absurd carriage uncut, first,
        foldr_consToFirst_cons, List.append_nil]
    | @returnFeed line rest lines inside _ ih =>
      have first : splitLines ('\r' :: '\n' :: rest) = [] :: lines := by simp [splitLines, ih]
      rw [splitLines_append inside (by simp), first, foldr_consToFirst_cons, List.append_nil]

theorem BreaksInto.not_mem {text line : List Char} {lines : List (List Char)}
    (breaks : BreaksInto text lines) (member : line ∈ lines) : '\n' ∉ line := by
  induction breaks with
  | nil => cases member
  | last _ inside =>
    rwa [List.mem_singleton.mp member]
  | feed inside _ _ ih =>
    obtain rfl | later := List.mem_cons.mp member
    · exact inside
    · exact ih later
  | returnFeed inside _ ih =>
    obtain rfl | later := List.mem_cons.mp member
    · exact inside
    · exact ih later

/-- Every line is a stretch of the text. -/
theorem BreaksInto.isInfix {text line : List Char} {lines : List (List Char)}
    (breaks : BreaksInto text lines) (member : line ∈ lines) : line <:+: text := by
  induction breaks with
  | nil => cases member
  | last _ _ =>
    obtain rfl := List.mem_singleton.mp member
    exact List.infix_rfl
  | @feed first rest lines _ _ _ ih =>
    obtain rfl | later := List.mem_cons.mp member
    · exact (List.prefix_append line _).isInfix
    · have behind : rest <:+ first ++ '\n' :: rest :=
        (List.suffix_cons _ rest).trans (List.suffix_append first _)
      exact (ih later).trans behind.isInfix
  | @returnFeed first rest lines _ _ ih =>
    obtain rfl | later := List.mem_cons.mp member
    · exact (List.prefix_append line _).isInfix
    · have behind : rest <:+ first ++ '\r' :: '\n' :: rest :=
        (List.suffix_append ['\r', '\n'] rest).trans (List.suffix_append first _)
      exact (ih later).trans behind.isInfix

/-- Lines with a line feed behind each. -/
def withFeeds (lines : List (List Char)) : List Char := lines.flatMap (· ++ ['\n'])

theorem breaksInto_withFeeds {lines : List (List Char)}
    (inside : ∀ line ∈ lines, '\n' ∉ line ∧ line.getLast? ≠ some '\r') :
    BreaksInto (withFeeds lines) lines := by
  induction lines with
  | nil => exact .nil
  | cons line lines ih =>
    obtain ⟨first, others⟩ := List.forall_mem_cons.mp inside
    rw [withFeeds, List.flatMap_cons, List.append_assoc]
    exact .feed first.1 first.2 (ih others)

end SchemaInterfaces.Text
