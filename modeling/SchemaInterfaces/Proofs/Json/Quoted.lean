import Mathlib.Data.Bool.AllAny
import SchemaInterfaces.Json.Quoted
import SchemaInterfaces.Json.Reader

/-!
# Reading quoted text back

Whatever is put in quotes, the reader finds it again and stops right behind the closing quote. The
quotes therefore never hide where a text ends, and two texts are never written alike.
-/
namespace SchemaInterfaces.Json

/-- The four digits of a control character stand for its number. -/
theorem hexUnit?_hexDigit (n : Nat) (h : n < 0x20) :
    hexUnit? '0' '0' (hexDigit (n / 16)) (hexDigit (n % 16)) = some n := by
  have all : ∀ m < 0x20, hexUnit? '0' '0' (hexDigit (m / 16)) (hexDigit (m % 16)) = some m := by
    decide
  exact all n h

/-- What is written for a character: a backslash and the letter that means it, the digits of its
number for other control characters, or the character itself. -/
theorem escape_cases (c : Char) :
    (∃ letter, escape c = ['\\', letter] ∧ letter ≠ 'u' ∧ simpleEscape? letter = some c) ∨
    (c.toNat < 0x20 ∧
      escape c = ['\\', 'u', '0', '0', hexDigit (c.toNat / 16), hexDigit (c.toNat % 16)]) ∨
    (c ≠ '"' ∧ c ≠ '\\' ∧ 0x20 ≤ c.toNat ∧ escape c = [c]) := by
  fun_cases escape c
  case case1 h => exact .inl ⟨'"', rfl, by decide, by rw [h]; rfl⟩
  case case2 h => exact .inl ⟨'\\', rfl, by decide, by rw [h]; rfl⟩
  case case3 h => exact .inl ⟨'b', rfl, by decide, by rw [h]; rfl⟩
  case case4 h => exact .inl ⟨'f', rfl, by decide, by rw [h]; rfl⟩
  case case5 h => exact .inl ⟨'n', rfl, by decide, by rw [h]; rfl⟩
  case case6 h => exact .inl ⟨'r', rfl, by decide, by rw [h]; rfl⟩
  case case7 h => exact .inl ⟨'t', rfl, by decide, by rw [h]; rfl⟩
  case case8 control => exact .inr (.inl ⟨control, rfl⟩)
  case case9 quote backslash _ _ _ _ _ control =>
    exact .inr (.inr ⟨quote, backslash, Nat.le_of_not_lt control, rfl⟩)

/-- No control character is left. -/
theorem le_toNat_of_mem_escape {c d : Char} (member : d ∈ escape c) : 0x20 ≤ d.toNat := by
  have digits : ∀ n < 0x20,
      ['\\', 'u', '0', '0', hexDigit (n / 16), hexDigit (n % 16)].all (0x20 ≤ ·.toNat) := by
    decide
  have letters {letter : Char} (visible : 0x20 ≤ letter.toNat) :
      ∀ d ∈ ['\\', letter], 0x20 ≤ d.toNat :=
    List.forall_mem_cons.mpr ⟨by decide, List.forall_mem_singleton.mpr visible⟩
  revert member
  fun_cases escape c
  case case8 control => exact List.all_iff_forall_prop.mp (digits c.toNat control) d
  case case9 control =>
    intro member
    rw [List.mem_singleton.mp member]
    exact Nat.le_of_not_lt control
  all_goals exact letters (by decide) d

theorem escape_ne_nil (c : Char) : escape c ≠ [] := by
  fun_cases escape c <;> simp

theorem length_le_flatMap_escape (text : List Char) :
    text.length ≤ (text.flatMap escape).length := by
  induction text with
  | nil => exact Nat.le_refl 0
  | cons c text ih =>
    have written := List.length_pos_iff.mpr (escape_ne_nil c)
    rw [List.flatMap_cons, List.length_append, List.length_cons]
    omega

/-- What is written for one character is read as this character. -/
theorem readText_escape (c : Char) (rest : List Char) :
    readText (escape c ++ rest) = consText c (readText rest) := by
  obtain ⟨letter, written, notUnit, means⟩ | ⟨control, written⟩ | ⟨quote, backslash, plain, written⟩
    := escape_cases c
  · rw [written]
    simp [readText, notUnit, means]
  · have unit := hexUnit?_hexDigit c.toNat control
    have trailing : isTrailingSurrogate c.toNat = false := by
      simp only [isTrailingSurrogate, Bool.and_eq_false_iff, decide_eq_false_iff_not]
      omega
    have leading : isLeadingSurrogate c.toNat = false := by
      simp only [isLeadingSurrogate, Bool.and_eq_false_iff, decide_eq_false_iff_not]
      omega
    rw [written]
    simp [readText, unit, trailing, leading]
  · rw [written]
    simp [readText, backslash, Nat.not_lt.mpr plain]

theorem readText_flatMap_escape (text rest : List Char) :
    readText (text.flatMap escape ++ '"' :: rest) = .ok (text, rest) := by
  induction text with
  | nil => simp [readText]
  | cons c text ih => rw [List.flatMap_cons, List.append_assoc, readText_escape, ih]; rfl

/-- Texts are told apart by what stands between their quotes. -/
theorem flatMap_escape_injective {first second : List Char}
    (same : first.flatMap escape = second.flatMap escape) : first = second := by
  have read := readText_flatMap_escape first []
  rw [same, readText_flatMap_escape] at read
  cases read
  rfl

end SchemaInterfaces.Json
