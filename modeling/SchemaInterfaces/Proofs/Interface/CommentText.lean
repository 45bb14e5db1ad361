import Mathlib.Data.List.Forall2
import SchemaInterfaces.Proofs.Interface.EscapedText

/-!
# What a doc comment shows

A doc comment has a single end mark, and that is the last thing on its last line. In front of it the
description can be read back up to escaping and trimming: a description of at most one line stands
between two spaces, and one of several lines has a line of the comment for each of its own, in
order, behind the indentation, a star and at most one space (`docComment_shows`).
-/
namespace SchemaInterfaces

/-- The mark that begins a doc comment. -/
def docStart : List Char := ['/', '*', '*']

/-- What a line inside a comment shows: all behind the indentation, a star and at most one space. -/
def shownText? (indent line : List Char) : Option (List Char) :=
  ((indent ++ [' ', '*']).isPrefixOf? line).map fun rest =>
    match rest with
    | ' ' :: shown => shown
    | _ => rest

/-- A line inside a comment as it is written. -/
def starred (indent line : List Char) : List Char :=
  indent ++ ' ' :: '*' :: if line = [] then [] else ' ' :: line

/-- The lines that show a description of several lines. -/
def starredLines (indent description : List Char) : List (List Char) :=
  (Text.splitLines description).map fun line =>
    starred indent (escapeCommentEnd (Text.dropBlankEnd line))

theorem shownText?_starred (indent line : List Char) :
    shownText? indent (starred indent line) = some line := by
  have behind : (indent ++ [' ', '*']).isPrefixOf? (starred indent line) =
      some (if line = [] then [] else ' ' :: line) := by
    rw [List.isPrefixOf?_eq_some_iff_append_eq, starred, List.append_assoc]
    rfl
  rw [shownText?, behind]
  cases line <;> rfl

theorem toList_commentLine (indent line : String) :
    (commentLine indent line).toList = starred indent.toList line.toList ++ ['\n'] := by
  rw [commentLine, starred]
  by_cases empty : line = ""
  · simp [empty]
  · have filled : line.toList ≠ [] := by simpa using empty
    simp [empty, filled]

theorem toList_commentLines (indent : String) (lines : List String) :
    (String.join (lines.map (commentLine indent))).toList =
      Text.withFeeds (lines.map fun line => starred indent.toList line.toList) := by
  induction lines with
  | nil => simp [Text.withFeeds]
  | cons line lines ih =>
    rw [List.map_cons, String.join_cons, String.toList_append, ih, toList_commentLine]
    rfl

/-! ### The text of a comment -/

section

variable (indent description : String)

/-- A description of at most one line. -/
theorem toList_docComment_of_short (short : (Text.splitLines description.toList).length ≤ 1) :
    (docComment indent description).toList = indent.toList ++ docStart ++
      (' ' :: escapeCommentEnd (Text.dropBlankEnds description.toList) ++ [' ']) ++ commentEnd ++
        ['\n'] := by
  have opening : "/** ".toList = docStart ++ [' '] := rfl
  have closing : " */\n".toList = ' ' :: commentEnd ++ ['\n'] := rfl
  rw [docComment]
  simp only [Text.lines, List.length_map, String.toList_ofList, splitLines_escapeCommentEnd,
    if_pos short, String.toList_append, opening, closing, Text.trim, dropBlankEnds_escapeCommentEnd]
  simp

/-- A description of several lines. -/
theorem toList_docComment_of_long (long : 1 < (Text.splitLines description.toList).length) :
    (docComment indent description).toList = Text.withFeeds ((indent.toList ++ docStart) ::
      starredLines indent.toList description.toList ++ [indent.toList ++ ' ' :: commentEnd]) := by
  have opening : "/**\n".toList = docStart ++ ['\n'] := rfl
  have closing : " */\n".toList = ' ' :: commentEnd ++ ['\n'] := rfl
  have several : ¬ (Text.splitLines description.toList).length ≤ 1 := by omega
  have shown (line : List Char) : (Text.trimEnd (String.ofList (escapeCommentEnd line))).toList =
      escapeCommentEnd (Text.dropBlankEnd line) := by
    rw [Text.trimEnd, String.toList_ofList, String.toList_ofList, dropBlankEnd_escapeCommentEnd]
  rw [docComment]
  simp only [Text.lines, List.length_map, String.toList_ofList, splitLines_escapeCommentEnd,
    if_neg several, String.toList_append, opening, closing, toList_commentLines]
  simp [Text.withFeeds, starredLines, Function.comp_def, shown]

end

/-! ### The end mark -/

/-- What cannot take part in an end mark divides a text for finding one. -/
theorem commentEnd_infix_append_cons (front : List Char) {c : Char} (star : c ≠ '*')
    (slash : c ≠ '/') (back : List Char) :
    commentEnd <:+: front ++ c :: back ↔ commentEnd <:+: front ∨ commentEnd <:+: back := by
  induction front with
  | nil => simp [commentEnd_infix_cons, commentEnd_ne_nil, star]
  | cons d front ih =>
    have next : (front ++ c :: back).head? = some '/' ↔ front.head? = some '/' := by
      cases front with
      | nil => simpa using slash
      | cons e front => rfl
    rw [List.cons_append, commentEnd_infix_cons, commentEnd_infix_cons, ih, next, or_assoc]

theorem not_commentEnd_spaces_append {indent back : List Char} (spaces : ∀ c ∈ indent, c = ' ')
    (free : ¬ commentEnd <:+: back) : ¬ commentEnd <:+: indent ++ back := by
  induction indent with
  | nil => exact free
  | cons c indent ih =>
    obtain ⟨rfl, others⟩ := List.forall_mem_cons.mp spaces
    rw [List.cons_append, commentEnd_infix_cons]
    rintro (⟨star, _⟩ | inside)
    · exact absurd star (by decide)
    · exact ih others inside

theorem not_commentEnd_withFeeds_append {lines : List (List Char)} {back : List Char}
    (free : ∀ line ∈ lines, ¬ commentEnd <:+: line) (freeBack : ¬ commentEnd <:+: back) :
    ¬ commentEnd <:+: Text.withFeeds lines ++ back := by
  induction lines with
  | nil => exact freeBack
  | cons line lines ih =>
    obtain ⟨first, others⟩ := List.forall_mem_cons.mp free
    rw [Text.withFeeds, List.flatMap_cons, List.append_assoc, List.append_assoc,
      List.singleton_append, commentEnd_infix_append_cons _ (by decide) (by decide), not_or]
    exact ⟨first, ih others⟩

/-- Where no end mark begins before the last one, it is the only one. -/
theorem eq_of_append_commentEnd {body before behind : List Char}
    (free : ¬ commentEnd <:+: body ++ ['*'])
    (same : body ++ commentEnd ++ ['\n'] = before ++ commentEnd ++ behind) : behind = ['\n'] := by
  induction body generalizing before with
  | nil =>
    rcases before with _ | ⟨_, _ | ⟨_, _ | ⟨_, before⟩⟩⟩ <;> simp [commentEnd] at same
    exact same.symm
  | cons c body ih =>
    rw [List.cons_append, commentEnd_infix_cons, not_or, not_and] at free
    cases before with
    | nil =>
      obtain ⟨star, rest⟩ := List.cons.inj same
      have slash : (body ++ commentEnd ++ ['\n']).head? = some '/' := congrArg List.head? rest
      refine absurd ?_ (free.1 star)
      cases body with
      | nil => exact slash
      | cons d body => exact slash
    | cons d before => exact ih free.2 (List.cons.inj same).2

/-! ### The lines of a comment -/

section

variable {indent : List Char} (spaces : ∀ c ∈ indent, c = ' ')

include spaces

theorem not_commentEnd_docStart : ¬ commentEnd <:+: indent ++ docStart := by
  apply not_commentEnd_spaces_append spaces
  simp [docStart, commentEnd_infix_cons, commentEnd_ne_nil]

theorem not_commentEnd_starred {line : List Char} (free : ¬ commentEnd <:+: line) :
    ¬ commentEnd <:+: starred indent line := by
  apply not_commentEnd_spaces_append spaces
  cases line with
  | nil => simp [commentEnd_infix_cons, commentEnd_ne_nil]
  | cons c line => simpa [commentEnd_infix_cons] using free

theorem lineFeed_not_mem_spaces : '\n' ∉ indent := fun member =>
  absurd (spaces _ member) (by decide)

/-- A line inside a comment is a line of the comment. -/
theorem starred_isLine {line : List Char} (inside : '\n' ∉ line)
    (uncut : line.getLast? ≠ some '\r') :
    '\n' ∉ starred indent line ∧ (starred indent line).getLast? ≠ some '\r' := by
  have noFeed := lineFeed_not_mem_spaces spaces
  cases line with
  | nil => simp [starred, noFeed]
  | cons c line =>
    rw [List.mem_cons, not_or] at inside
    simpa [starred, noFeed, inside, List.getLast?_cons] using uncut

theorem not_commentEnd_of_mem_starredLines {description line : List Char}
    (member : line ∈ starredLines indent description) : ¬ commentEnd <:+: line := by
  obtain ⟨whole, _, rfl⟩ := List.mem_map.mp member
  exact not_commentEnd_starred spaces (not_commentEnd_escape _)

/-- What is left of a line behind trimming does not end in a carriage return, which is blank. -/
theorem isLine_of_mem_starredLines {description line : List Char}
    (member : line ∈ starredLines indent description) :
    '\n' ∉ line ∧ line.getLast? ≠ some '\r' := by
  obtain ⟨whole, ofText, rfl⟩ := List.mem_map.mp member
  apply starred_isLine spaces
  · intro inside
    have inWhole := (Text.prefix_dropBlankEnd whole).subset
      (mem_of_mem_escapeCommentEnd inside (by decide))
    exact (Text.breaksInto_splitLines description).not_mem ofText inWhole
  · rw [getLast?_escapeCommentEnd]
    intro carriage
    exact absurd (Text.isBlank_of_getLast?_dropBlankEnd carriage) (by decide)

end

/-- A description of several lines becomes a comment of as many lines and two more. -/
theorem breaksInto_docComment {indent : String} (spaces : ∀ c ∈ indent.toList, c = ' ')
    {description : String} (long : 1 < (Text.splitLines description.toList).length) :
    Text.BreaksInto (docComment indent description).toList ((indent.toList ++ docStart) ::
      starredLines indent.toList description.toList ++ [indent.toList ++ ' ' :: commentEnd]) := by
  have noFeed := lineFeed_not_mem_spaces spaces
  rw [toList_docComment_of_long indent description long]
  apply Text.breaksInto_withFeeds
  intro line member
  rw [List.cons_append, List.mem_cons, List.mem_append, List.mem_singleton] at member
  rcases member with rfl | shown | rfl
  · simp [docStart, noFeed]
  · exact isLine_of_mem_starredLines spaces shown
  · simp [commentEnd, noFeed]

/-- Escaped text between two spaces adds no end mark. -/
theorem not_commentEnd_between_spaces {start : List Char} (free : ¬ commentEnd <:+: start)
    (text : List Char) :
    ¬ commentEnd <:+: start ++ (' ' :: escapeCommentEnd text ++ [' ']) ++ ['*'] := by
  have regrouped : start ++ (' ' :: escapeCommentEnd text ++ [' ']) ++ ['*'] =
      start ++ ' ' :: (escapeCommentEnd text ++ ' ' :: ['*']) := by simp
  rw [regrouped, commentEnd_infix_append_cons _ (by decide) (by decide),
    commentEnd_infix_append_cons _ (by decide) (by decide), not_or, not_or]
  exact ⟨free, not_commentEnd_escape text, by simp [commentEnd_infix_cons, commentEnd_ne_nil]⟩

/-- No end mark begins in front of the one at the end of a comment. -/
theorem exists_between {indent : String} (spaces : ∀ c ∈ indent.toList, c = ' ')
    (description : String) :
    ∃ between, (docComment indent description).toList =
        indent.toList ++ docStart ++ between ++ commentEnd ++ ['\n'] ∧
      ¬ commentEnd <:+: indent.toList ++ docStart ++ between ++ ['*'] ∧
      ((Text.splitLines description.toList).length ≤ 1 →
        between = ' ' :: escapeCommentEnd (Text.dropBlankEnds description.toList) ++ [' ']) := by
  have start := not_commentEnd_docStart spaces
  by_cases short : (Text.splitLines description.toList).length ≤ 1
  · exact ⟨_, toList_docComment_of_short indent description short,
      not_commentEnd_between_spaces start _, fun _ => rfl⟩
  · have whole := toList_docComment_of_long indent description (Nat.lt_of_not_le short)
    refine ⟨'\n' :: Text.withFeeds (starredLines indent.toList description.toList) ++
      indent.toList ++ [' '], ?_, ?_, fun one => absurd one short⟩
    · rw [whole]
      simp [Text.withFeeds]
    · have free : ∀ line ∈ (indent.toList ++ docStart) ::
          starredLines indent.toList description.toList, ¬ commentEnd <:+: line :=
        List.forall_mem_cons.mpr
          ⟨start, fun line member => not_commentEnd_of_mem_starredLines spaces member⟩
      have last : ¬ commentEnd <:+: indent.toList ++ [' ', '*'] :=
        not_commentEnd_spaces_append spaces (by simp [commentEnd_infix_cons, commentEnd_ne_nil])
      simpa [Text.withFeeds] using not_commentEnd_withFeeds_append free last

/-- A comment begins with its start mark behind the indentation, and its only end mark stands at
its end. A description of at most one line stands between two spaces in between. One of several
lines is shown line by line. End marks in the description are escaped, and blanks at the ends are
left out. -/
theorem docComment_shows {indent : String} (spaces : ∀ c ∈ indent.toList, c = ' ')
    (description : String) :
    ∃ lines between, Text.BreaksInto description.toList lines ∧
      (docComment indent description).toList =
        indent.toList ++ docStart ++ between ++ commentEnd ++ ['\n'] ∧
      (∀ before behind, (docComment indent description).toList = before ++ commentEnd ++ behind →
        behind = ['\n']) ∧
      (lines.length ≤ 1 → ∃ shown,
        IsEscaped (Text.dropBlankEnds description.toList) shown ∧
          between = ' ' :: shown ++ [' ']) ∧
      (1 < lines.length → ∃ inner,
        Text.BreaksInto (docComment indent description).toList
            ((indent.toList ++ docStart) :: inner ++ [indent.toList ++ ' ' :: commentEnd]) ∧
          List.Forall₂ (fun line written => ∃ shown, IsEscaped (Text.dropBlankEnd line) shown ∧
            shownText? indent.toList written = some shown) lines inner) := by
  obtain ⟨between, whole, free, short⟩ := exists_between spaces description
  refine ⟨Text.splitLines description.toList, between, Text.breaksInto_splitLines _, whole,
    fun before behind same => ?_, fun one => ?_, fun several => ?_⟩
  · rw [whole] at same
    exact eq_of_append_commentEnd free same
  · exact ⟨_, isEscaped_iff.mpr rfl, short one⟩
  · refine ⟨_, breaksInto_docComment spaces several, ?_⟩
    rw [starredLines, List.forall₂_map_right_iff, List.forall₂_same]
    intro line _
    exact ⟨_, isEscaped_iff.mpr rfl, shownText?_starred _ _⟩

/-- Stars at the end of a line, slashes at its beginning and end marks of its own do not close the
comment of a description; each of its two lines is shown. -/
theorem docComment_shows_hostile :
    (∀ c ∈ "  ".toList, c = ' ') ∧
    (∀ before behind,
      (docComment "  " "**/ \r\n/*/*\r\n").toList = before ++ commentEnd ++ behind →
        behind = ['\n']) ∧
    ∃ inner, Text.BreaksInto (docComment "  " "**/ \r\n/*/*\r\n").toList
        ("  /**".toList :: inner ++ ["   */".toList]) ∧
      inner.length = 2 := by
  have spaces : ∀ c ∈ "  ".toList, c = ' ' := by simp
  obtain ⟨lines, _, breaks, _, only, _, several⟩ :=
    docComment_shows spaces "**/ \r\n/*/*\r\n"
  obtain rfl := Text.splitLines_iff.mpr breaks
  obtain ⟨inner, written, shown⟩ := several (by decide)
  exact ⟨spaces, only, inner, written, shown.length_eq.symm⟩

example : docComment "  " "**/ \r\n/*/*\r\n" = "  /**\n   * **\\/\n   * /*\\/*\n   */\n" := by
  decide +kernel

end SchemaInterfaces
