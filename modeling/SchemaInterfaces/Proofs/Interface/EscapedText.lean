import Mathlib.Data.List.Induction
import SchemaInterfaces.Proofs.Interface.DocComment
import SchemaInterfaces.Proofs.Text.LineBreak

/-!
# Escaped text

What is written for a text in a comment: a backslash stands in each of its end marks, and the pieces
between these are as they were (`isEscaped_iff`). An end mark contains neither a line break nor a
blank, so it makes no difference whether a text is escaped before it is broken into lines
(`splitLines_escapeCommentEnd`) and trimmed (`dropBlankEnds_escapeCommentEnd`) or after.
-/
namespace SchemaInterfaces

/-- The mark that ends a comment with a backslash in it. -/
def escapedEnd : List Char := ['*', '\\', '/']

/-- A text and what is written for it, where `pieces` are what stands between the end marks of the
text. -/
def IsEscaped (text written : List Char) : Prop :=
  ∃ pieces : List (List Char), (∀ piece ∈ pieces, ¬ commentEnd <:+: piece) ∧
    text = commentEnd.intercalate pieces ∧ written = escapedEnd.intercalate pieces

/-! ### Pieces between end marks -/

theorem escapeCommentEnd_cons {c : Char} {rest : List Char}
    (noMark : c = '*' → rest.head? ≠ some '/') :
    escapeCommentEnd (c :: rest) = c :: escapeCommentEnd rest := by
  cases rest with
  | nil => rfl
  | cons d rest =>
    rw [escapeCommentEnd, if_neg]
    rintro ⟨star, rfl⟩
    exact noMark star rfl

/-- Text without an end mark stays as it is. -/
theorem escapeCommentEnd_append {front back : List Char} (free : ¬ commentEnd <:+: front)
    (apart : back.head? ≠ some '/') :
    escapeCommentEnd (front ++ back) = front ++ escapeCommentEnd back := by
  induction front with
  | nil => rfl
  | cons c front ih =>
    rw [commentEnd_infix_cons, not_or, not_and] at free
    have noMark : c = '*' → (front ++ back).head? ≠ some '/' := by
      intro star
      cases front with
      | nil => exact apart
      | cons d front => exact free.1 star
    rw [List.cons_append, escapeCommentEnd_cons noMark, ih free.2, List.cons_append]

theorem escapeCommentEnd_intercalate {pieces : List (List Char)}
    (free : ∀ piece ∈ pieces, ¬ commentEnd <:+: piece) :
    escapeCommentEnd (commentEnd.intercalate pieces) = escapedEnd.intercalate pieces := by
  induction pieces with
  | nil => rfl
  | cons piece pieces ih =>
    obtain ⟨first, others⟩ := List.forall_mem_cons.mp free
    cases pieces with
    | nil =>
      have noSlash : ([] : List Char).head? ≠ some '/' := by simp
      have whole := escapeCommentEnd_append first noSlash
      rw [List.append_nil] at whole
      rw [List.intercalate_singleton, List.intercalate_singleton, whole]
      exact List.append_nil piece
    | cons next pieces =>
      rw [List.intercalate_cons_cons, List.intercalate_cons_cons, List.append_assoc,
        escapeCommentEnd_append first (by simp [commentEnd]), List.append_assoc, ← ih others]
      simp [commentEnd, escapedEnd, escapeCommentEnd]

theorem intercalate_cons_first (mark : List Char) (c : Char) (piece : List Char)
    (pieces : List (List Char)) :
    mark.intercalate ((c :: piece) :: pieces) = c :: mark.intercalate (piece :: pieces) := by
  cases pieces with
  | nil => simp
  | cons next pieces =>
    simp only [List.intercalate_cons_cons, List.cons_append]

/-- Every text is its pieces with end marks between them. -/
theorem exists_pieces (text : List Char) :
    ∃ piece pieces, (∀ part ∈ piece :: pieces, ¬ commentEnd <:+: part) ∧
      text = commentEnd.intercalate (piece :: pieces) := by
  fun_induction escapeCommentEnd text with
  | case1 => exact ⟨[], [], by simp [commentEnd_ne_nil], rfl⟩
  | case2 c => exact ⟨[c], [], by simp [commentEnd_infix_cons, commentEnd_ne_nil], rfl⟩
  | case3 c d rest ends ih =>
    obtain ⟨rfl, rfl⟩ := ends
    obtain ⟨piece, pieces, free, rfl⟩ := ih
    refine ⟨[], piece :: pieces, List.forall_mem_cons.mpr ⟨by simp [commentEnd_ne_nil], free⟩, ?_⟩
    rw [List.intercalate_cons_cons]
    rfl
  | case4 c d rest open' ih =>
    obtain ⟨piece, pieces, free, split⟩ := ih
    obtain ⟨first, others⟩ := List.forall_mem_cons.mp free
    refine ⟨c :: piece, pieces, List.forall_mem_cons.mpr ⟨?_, others⟩, ?_⟩
    · rw [commentEnd_infix_cons]
      rintro (⟨star, slash⟩ | inside)
      · obtain ⟨more, rfl⟩ := List.head?_eq_some_iff.mp slash
        rw [intercalate_cons_first] at split
        exact open' ⟨star, (List.cons.inj split).1⟩
      · exact first inside
    · rw [intercalate_cons_first, split]

theorem isEscaped_iff {text written : List Char} :
    IsEscaped text written ↔ escapeCommentEnd text = written := by
  constructor
  · rintro ⟨pieces, free, rfl, rfl⟩
    exact escapeCommentEnd_intercalate free
  · rintro rfl
    obtain ⟨piece, pieces, free, rfl⟩ := exists_pieces text
    exact ⟨piece :: pieces, free, rfl, escapeCommentEnd_intercalate free⟩

/-! ### Escaping and lines -/

/-- What cannot take part in an end mark divides a text for escaping. -/
theorem escapeCommentEnd_append_cons (front : List Char) {c : Char} (star : c ≠ '*')
    (slash : c ≠ '/') (back : List Char) :
    escapeCommentEnd (front ++ c :: back) =
      escapeCommentEnd front ++ c :: escapeCommentEnd back := by
  have divides : escapeCommentEnd (c :: back) = c :: escapeCommentEnd back :=
    escapeCommentEnd_cons fun same => absurd same star
  fun_induction escapeCommentEnd front with
  | case1 => exact divides
  | case2 d =>
    have noMark : d = '*' → (c :: back).head? ≠ some '/' := fun _ same =>
      slash (Option.some.inj same)
    rw [List.cons_append, List.nil_append, escapeCommentEnd_cons noMark, divides]
    rfl
  | case3 d e rest ends ih =>
    simp [escapeCommentEnd, ends, ih]
  | case4 d e rest open' ih =>
    rw [List.cons_append, List.cons_append, escapeCommentEnd, if_neg open', ← List.cons_append, ih,
      List.cons_append]

theorem mem_of_mem_escapeCommentEnd {c : Char} {text : List Char}
    (member : c ∈ escapeCommentEnd text) (other : c ≠ '\\') : c ∈ text := by
  fun_induction escapeCommentEnd text with
  | case1 => exact member
  | case2 d => exact member
  | case3 d e rest ends ih =>
    simp only [List.mem_cons, other, false_or] at member ⊢
    exact ends.1 ▸ ends.2 ▸ member.imp id (Or.imp id ih)
  | case4 d e rest open' ih =>
    exact List.mem_cons.mpr ((List.mem_cons.mp member).imp id ih)

theorem getLast?_escapeCommentEnd (text : List Char) :
    (escapeCommentEnd text).getLast? = text.getLast? := by
  fun_induction escapeCommentEnd text with
  | case1 => rfl
  | case2 c => rfl
  | case3 c d rest ends ih => simp [List.getLast?_cons, ih, ends]
  | case4 c d rest open' ih => rw [List.getLast?_cons, ih, ← List.getLast?_cons]

theorem Text.BreaksInto.escape {text : List Char} {lines : List (List Char)}
    (breaks : BreaksInto text lines) :
    BreaksInto (escapeCommentEnd text) (lines.map escapeCommentEnd) := by
  have feedFree {line : List Char} (inside : '\n' ∉ line) : '\n' ∉ escapeCommentEnd line :=
    fun member => inside (mem_of_mem_escapeCommentEnd member (by decide))
  induction breaks with
  | nil => exact .nil
  | @last line nonempty inside =>
    refine .last (fun empty => nonempty ?_) (feedFree inside)
    rw [← List.head?_eq_none_iff, ← head?_escapeCommentEnd, empty, List.head?_nil]
  | feed inside uncut _ ih =>
    rw [escapeCommentEnd_append_cons _ (by decide) (by decide)]
    exact .feed (feedFree inside) (by rwa [getLast?_escapeCommentEnd]) ih
  | returnFeed inside _ ih =>
    rw [escapeCommentEnd_append_cons _ (by decide) (by decide), escapeCommentEnd_cons (by simp)]
    exact .returnFeed (feedFree inside) ih

theorem splitLines_escapeCommentEnd (text : List Char) :
    Text.splitLines (escapeCommentEnd text) = (Text.splitLines text).map escapeCommentEnd :=
  Text.splitLines_iff.mpr (Text.breaksInto_splitLines text).escape

/-! ### Escaping and trimming -/

theorem ne_of_isBlank {c : Char} (blank : Text.isBlank c = true) : c ≠ '*' ∧ c ≠ '/' := by
  constructor
  · rintro rfl
    exact absurd blank (by decide)
  · rintro rfl
    exact absurd blank (by decide)

theorem dropBlankEnd_escapeCommentEnd (text : List Char) :
    Text.dropBlankEnd (escapeCommentEnd text) = escapeCommentEnd (Text.dropBlankEnd text) := by
  induction text using List.reverseRecOn with
  | nil => rfl
  | append_singleton text c ih =>
    rw [Text.dropBlankEnd_concat text c]
    split
    next blank =>
      obtain ⟨star, slash⟩ := ne_of_isBlank blank
      rw [escapeCommentEnd_append_cons text star slash, escapeCommentEnd,
        Text.dropBlankEnd_concat, if_pos blank, ih]
    next noBlank =>
      have last := getLast?_escapeCommentEnd (text ++ [c])
      rw [List.getLast?_concat] at last
      obtain ⟨front, split⟩ := List.getLast?_eq_some_iff.mp last
      rw [split, Text.dropBlankEnd_concat, if_neg noBlank]

theorem dropWhile_escapeCommentEnd (text : List Char) :
    (escapeCommentEnd text).dropWhile Text.isBlank =
      escapeCommentEnd (text.dropWhile Text.isBlank) := by
  induction text with
  | nil => rfl
  | cons c rest ih =>
    by_cases blank : Text.isBlank c = true
    · have divides : escapeCommentEnd (c :: rest) = c :: escapeCommentEnd rest :=
        escapeCommentEnd_cons fun same => absurd same (ne_of_isBlank blank).1
      rw [divides, List.dropWhile_cons_of_pos blank, List.dropWhile_cons_of_pos blank, ih]
    · obtain ⟨more, split⟩ :=
        List.head?_eq_some_iff.mp ((head?_escapeCommentEnd (c :: rest)).trans List.head?_cons)
      rw [List.dropWhile_cons_of_neg blank, split, List.dropWhile_cons_of_neg blank]

theorem dropBlankEnds_escapeCommentEnd (text : List Char) :
    Text.dropBlankEnds (escapeCommentEnd text) = escapeCommentEnd (Text.dropBlankEnds text) := by
  rw [Text.dropBlankEnds, dropWhile_escapeCommentEnd, dropBlankEnd_escapeCommentEnd,
    Text.dropBlankEnds]

end SchemaInterfaces
