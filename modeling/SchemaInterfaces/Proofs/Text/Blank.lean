import Mathlib.Data.List.Infix
import SchemaInterfaces.Text.Blank

/-!
# Trimmed texts

A text is trimmed by cutting off blank characters at both ends until there is none left. Whatever is
left in this way is the same text (`isTrimmed_iff`).
-/
namespace SchemaInterfaces.Text

/-- What is left of a text when the blank characters at both its ends are cut off. -/
structure IsTrimmed (text trimmed : List Char) : Prop where
  cut : ∃ front back, text = front ++ trimmed ++ back ∧
    (∀ c ∈ front, isBlank c = true) ∧ ∀ c ∈ back, isBlank c = true
  begins : ∀ c ∈ trimmed.head?, isBlank c = false
  ends : ∀ c ∈ trimmed.getLast?, isBlank c = false

variable {text : List Char}

theorem dropBlankEnd_concat (text : List Char) (c : Char) :
    dropBlankEnd (text ++ [c]) = if isBlank c then dropBlankEnd text else text ++ [c] := by
  rw [dropBlankEnd, List.reverse_append, List.reverse_singleton, List.singleton_append,
    List.dropWhile_cons]
  split
  next => rfl
  next => rw [List.reverse_cons, List.reverse_reverse]

/-- No blank is left at the end. -/
theorem isBlank_of_getLast?_dropBlankEnd {c : Char}
    (last : (dropBlankEnd text).getLast? = some c) : isBlank c = false := by
  have stop := List.head?_dropWhile_not isBlank text.reverse
  rw [dropBlankEnd, List.getLast?_reverse] at last
  rwa [last] at stop

/-- What is cut off at the end is blank. -/
theorem exists_append_dropBlankEnd (text : List Char) :
    ∃ back, text = dropBlankEnd text ++ back ∧ ∀ c ∈ back, isBlank c = true := by
  refine ⟨(text.reverse.takeWhile isBlank).reverse, ?_, fun c member => ?_⟩
  · rw [dropBlankEnd, ← List.reverse_append, List.takeWhile_append_dropWhile, List.reverse_reverse]
  · exact List.all_eq_true.mp List.all_takeWhile c (List.mem_reverse.mp member)

theorem prefix_dropBlankEnd (text : List Char) : dropBlankEnd text <+: text := by
  obtain ⟨back, whole, _⟩ := exists_append_dropBlankEnd text
  exact ⟨back, whole.symm⟩

theorem infix_dropBlankEnds (text : List Char) : dropBlankEnds text <:+: text :=
  (prefix_dropBlankEnd _).isInfix.trans (List.dropWhile_suffix _).isInfix

theorem dropWhile_isBlank_of_begins (begins : ∀ c ∈ text.head?, isBlank c = false) :
    text.dropWhile isBlank = text := by
  cases text with
  | nil => rfl
  | cons c rest => rw [List.dropWhile_cons_of_neg (by simp [begins c rfl])]

theorem dropBlankEnd_append_of_ends {back : List Char}
    (ends : ∀ c ∈ text.getLast?, isBlank c = false) (blank : ∀ c ∈ back, isBlank c = true) :
    dropBlankEnd (text ++ back) = text := by
  have reversed : ∀ c ∈ back.reverse, isBlank c = true := by simpa using blank
  rw [dropBlankEnd, List.reverse_append, List.dropWhile_append_of_pos reversed,
    dropWhile_isBlank_of_begins (by simpa using ends), List.reverse_reverse]

theorem isTrimmed_dropBlankEnds (text : List Char) : IsTrimmed text (dropBlankEnds text) where
  cut := by
    obtain ⟨back, whole, blank⟩ := exists_append_dropBlankEnd (text.dropWhile isBlank)
    refine ⟨text.takeWhile isBlank, back, ?_, List.all_eq_true.mp List.all_takeWhile, blank⟩
    rw [dropBlankEnds, List.append_assoc, ← whole, List.takeWhile_append_dropWhile]
  begins c first := by
    obtain ⟨rest, whole⟩ := prefix_dropBlankEnd (text.dropWhile isBlank)
    have nonempty : dropBlankEnd (text.dropWhile isBlank) ≠ [] :=
      List.ne_nil_of_mem (List.mem_of_head? first)
    have head : (text.dropWhile isBlank).head? = some c := by
      rw [← whole, List.head?_append_of_ne_nil _ nonempty]
      exact first
    have stop := List.head?_dropWhile_not isBlank text
    rwa [head] at stop
  ends _ last := isBlank_of_getLast?_dropBlankEnd last

/-- What is left is one text, however it is cut. -/
theorem isTrimmed_iff (text trimmed : List Char) :
    IsTrimmed text trimmed ↔ trimmed = dropBlankEnds text := by
  constructor
  · rintro ⟨⟨front, back, rfl, blank, blank'⟩, begins, ends⟩
    rw [dropBlankEnds, List.append_assoc, List.dropWhile_append_of_pos blank]
    cases trimmed with
    | nil =>
      have none : back.dropWhile isBlank = [] := by
        have skipped : (back ++ []).dropWhile isBlank = [] := List.dropWhile_append_of_pos blank'
        rwa [List.append_nil] at skipped
      rw [List.nil_append, none]
      rfl
    | cons c rest =>
      rw [List.cons_append, List.dropWhile_cons_of_neg (by simp [begins c rfl]),
        ← List.cons_append, dropBlankEnd_append_of_ends ends blank']
  · rintro rfl
    exact isTrimmed_dropBlankEnds text

end SchemaInterfaces.Text
