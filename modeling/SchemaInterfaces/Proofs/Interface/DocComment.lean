import Mathlib.Data.List.Basic
import Mathlib.Data.List.Infix
import SchemaInterfaces.Proofs.Interface.TextTokens
import SchemaInterfaces.Proofs.Text.Blank
import SchemaInterfaces.Proofs.Text.LineBreak

/-!
# Doc comments are comments

A description becomes text between code, so a description that closed its comment would become code.
It cannot: the end mark stands nowhere in an escaped text (`not_commentEnd_escape`), cutting a text
into lines and trimming these brings no new neighbours together, and the frame around the lines
keeps a blank between any star and what follows it. A whole comment is therefore skipped by the
scanner (`silent_docComment`), for any description.
-/
namespace SchemaInterfaces

/-- The mark that ends a comment. -/
def commentEnd : List Char := ['*', '/']

theorem commentEnd_ne_nil : commentEnd ≠ [] := by
  simp [commentEnd]

theorem commentEnd_infix_cons (c : Char) (text : List Char) :
    commentEnd <:+: c :: text ↔ c = '*' ∧ text.head? = some '/' ∨ commentEnd <:+: text := by
  rw [List.infix_cons_iff]
  apply or_congr_left
  cases text with
  | nil => simp [commentEnd]
  | cons d text => simp [commentEnd, List.cons_prefix_cons, eq_comm]

/-! ### Escaped text -/

theorem head?_escapeCommentEnd (text : List Char) :
    (escapeCommentEnd text).head? = text.head? := by
  fun_cases escapeCommentEnd text with
  | case1 => rfl
  | case2 c => rfl
  | case3 c d rest ends => simp [ends]
  | case4 c d rest open' => rfl

theorem not_commentEnd_escape (text : List Char) :
    ¬ commentEnd <:+: escapeCommentEnd text := by
  fun_induction escapeCommentEnd text with
  | case1 => simp [commentEnd_ne_nil]
  | case2 c => simp [commentEnd_infix_cons, commentEnd_ne_nil]
  | case3 c d rest ends ih =>
    -- A backslash now stands between the two characters, and no star stands behind it.
    simp [commentEnd_infix_cons, ih]
  | case4 c d rest open' ih =>
    rw [commentEnd_infix_cons, head?_escapeCommentEnd]
    rintro (⟨star, slash⟩ | inside)
    · exact open' ⟨star, by simpa using slash⟩
    · exact ih inside

/-! ### Lines and trimming -/

theorem not_commentEnd_line {text line : String} (free : ¬ commentEnd <:+: text.toList)
    (member : line ∈ (Text.lines text).map Text.trimEnd) : ¬ commentEnd <:+: line.toList := by
  obtain ⟨whole, inLines, rfl⟩ := List.mem_map.mp member
  obtain ⟨chars, inSplit, rfl⟩ := List.mem_map.mp inLines
  rw [Text.trimEnd, String.toList_ofList, String.toList_ofList]
  have stretch := (Text.breaksInto_splitLines text.toList).isInfix inSplit
  have cut := (Text.prefix_dropBlankEnd chars).isInfix.trans stretch
  exact fun inside => free (inside.trans cut)

/-! ### The scanner inside a comment -/

/-- Text without an end mark is skipped together with the character behind it, where that cannot
take part in an end mark. -/
theorem Scanner.run_inComment {text : List Char} (free : ¬ commentEnd <:+: text) {c : Char}
    (star : c ≠ '*') (slash : c ≠ '/') (rest : List Char) :
    comment.run (text ++ c :: rest) = comment.run rest ∧
      (text.head? ≠ some '/' → commentStar.run (text ++ c :: rest) = comment.run rest) := by
  induction text with
  | nil => simp [run, step, star, slash]
  | cons d text ih =>
    rw [commentEnd_infix_cons, not_or] at free
    obtain ⟨open', kept⟩ := ih free.2
    by_cases isStar : d = '*'
    · subst isStar
      have noSlash : text.head? ≠ some '/' := fun h => free.1 ⟨rfl, h⟩
      simp [run, step, kept noSlash]
    · simp only [List.cons_append, run, step, isStar, if_false, List.nil_append, open', true_and]
      intro notSlash
      have : d ≠ '/' := by simpa using notSlash
      simp [this, open']

theorem Scanner.run_comment {text : List Char} (free : ¬ commentEnd <:+: text) {c : Char}
    (star : c ≠ '*') (slash : c ≠ '/') (rest : List Char) :
    comment.run (text ++ c :: rest) = comment.run rest :=
  (run_inComment free star slash rest).1

/-- An indentation does not take part in an end mark. -/
theorem not_commentEnd_of_spaces {indent : String} (spaces : ∀ c ∈ indent.toList, c = ' ') :
    ¬ commentEnd <:+: indent.toList := by
  intro inside
  have star := spaces '*' (inside.subset (by simp [commentEnd]))
  exact absurd star (by decide)

theorem tokens_openComment {c : Char} (star : c ≠ '*') (slash : c ≠ '/') (rest : List Char) :
    tokens ('/' :: '*' :: '*' :: c :: rest) = Scanner.comment.run rest := by
  simp [tokens, Scanner.run, Scanner.step, Scanner.start, star, slash]

theorem Scanner.run_closeComment (rest : List Char) :
    comment.run ('*' :: '/' :: '\n' :: rest) = tokens rest := by
  have closed : comment.run ('*' :: '/' :: '\n' :: rest) = tokens ('\n' :: rest) := rfl
  rw [closed, tokens_blank rfl]

section

variable {indent : String} (spaces : ∀ c ∈ indent.toList, c = ' ')

include spaces

theorem run_commentLine {line : String} (free : ¬ commentEnd <:+: line.toList) (rest : List Char) :
    Scanner.comment.run ((commentLine indent line).toList ++ rest) = Scanner.comment.run rest := by
  have blank := not_commentEnd_of_spaces spaces
  unfold commentLine
  split
  next =>
    have frame : " *\n".toList = [' ', '*', '\n'] := rfl
    simp only [String.toList_append, frame, List.append_assoc, List.cons_append, List.nil_append]
    rw [Scanner.run_comment blank (by decide) (by decide)]
    rfl
  next =>
    have frame : " * ".toList = [' ', '*', ' '] := rfl
    have lineEnd : "\n".toList = ['\n'] := rfl
    simp only [String.toList_append, frame, lineEnd, List.append_assoc, List.cons_append,
      List.nil_append]
    rw [Scanner.run_comment blank (by decide) (by decide)]
    exact Scanner.run_comment free (by decide) (by decide) rest

theorem run_commentLines {lines : List String}
    (free : ∀ line ∈ lines, ¬ commentEnd <:+: line.toList) (rest : List Char) :
    Scanner.comment.run ((String.join (lines.map (commentLine indent))).toList ++ rest) =
      Scanner.comment.run rest := by
  induction lines with
  | nil => simp
  | cons line lines ih =>
    rw [List.map_cons, String.join_cons, String.toList_append, List.append_assoc,
      run_commentLine spaces (free line (.head _)), ih fun l member => free l (.tail _ member)]

/-- The scanner passes over a doc comment, whatever its description holds. -/
theorem silent_docComment (description : String) : Silent (docComment indent description) := by
  intro rest
  have free : ¬ commentEnd <:+: (String.ofList (escapeCommentEnd description.toList)).toList := by
    rw [String.toList_ofList]
    exact not_commentEnd_escape description.toList
  have blank := not_commentEnd_of_spaces spaces
  have closing : " */\n".toList = [' ', '*', '/', '\n'] := rfl
  unfold docComment
  generalize String.ofList (escapeCommentEnd description.toList) = text at free
  dsimp only
  split
  next =>
    have opening : "/** ".toList = ['/', '*', '*', ' '] := rfl
    have body : ¬ commentEnd <:+: (Text.trim text).toList := by
      rw [Text.trim, String.toList_ofList]
      exact fun inside => free (inside.trans (Text.infix_dropBlankEnds _))
    simp only [String.toList_append, List.append_assoc, opening, closing, List.cons_append,
      List.nil_append]
    rw [tokens_spaces spaces, tokens_openComment (by decide) (by decide),
      Scanner.run_comment body (by decide) (by decide), Scanner.run_closeComment]
  next =>
    have opening : "/**\n".toList = ['/', '*', '*', '\n'] := rfl
    simp only [String.toList_append, List.append_assoc, opening, closing, List.cons_append,
      List.nil_append]
    rw [tokens_spaces spaces, tokens_openComment (by decide) (by decide),
      run_commentLines spaces fun line member => not_commentEnd_line free member,
      Scanner.run_comment blank (by decide) (by decide), Scanner.run_closeComment]

end

/-- Comments have no tokens in any layout. -/
theorem Layout.silentDocs (layout : Layout) : layout.SilentDocs := by
  intro indent known description
  have spaces : ∀ c ∈ indent.toList, c = ' ' := by
    simp only [List.mem_cons, List.not_mem_nil, or_false] at known
    rcases known with rfl | rfl
    · simp
    · exact layout.fieldIndent_spaces
  unfold doc
  split
  · split
    · exact silent_docComment spaces _
    · exact silent_empty
  · exact silent_empty

end SchemaInterfaces
