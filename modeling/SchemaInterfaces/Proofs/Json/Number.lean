import SchemaInterfaces.Json.Number
import SchemaInterfaces.Proofs.Number.Decimal

/-!
# Reading integers back

An integer of 64 bits, with a sign or without, is written in its decimal digits and read exactly. A
number goes on as long as digits, a point or an exponent follow, so it must not run into such a
character (`readNumber_digits`).
-/
namespace SchemaInterfaces.Json

/-- A text in front of which a number ends. -/
def EndsNumber (text : List Char) : Prop :=
  ∀ c ∈ text.head?, c.isDigit = false ∧ c ≠ '.' ∧ c ≠ 'e' ∧ c ≠ 'E'

theorem endsNumber_nil : EndsNumber [] := by simp [EndsNumber]

/-- Digits are gathered as long as the number that they spell is small enough. -/
theorem gather_eq {word limit : Nat} {digits : List Char}
    (small : digits.foldl (fun n c => 10 * n + Decimal.digitValue c) word ≤ limit) :
    gather word limit digits =
      (digits.foldl (fun n c => 10 * n + Decimal.digitValue c) word, []) := by
  induction digits generalizing word with
  | nil => rfl
  | cons digit rest ih =>
    have grows (n : Nat) (more : List Char) :
        n ≤ more.foldl (fun n c => 10 * n + Decimal.digitValue c) n := by
      induction more generalizing n with
      | nil => exact Nat.le_refl n
      | cons c more ih =>
        rw [List.foldl_cons]
        exact Nat.le_trans (by omega) (ih _)
    rw [List.foldl_cons] at small ⊢
    rw [gather, if_pos (Nat.le_trans (grows _ rest) small), ih small]

section

variable {rest : List Char} (ends : EndsNumber rest)

include ends

theorem takeWhile_isDigit_append (digits : List Char) (all : ∀ c ∈ digits, c.isDigit = true) :
    (digits ++ rest).takeWhile Char.isDigit = digits ∧
      (digits ++ rest).dropWhile Char.isDigit = rest := by
  rw [List.takeWhile_append_of_pos all, List.dropWhile_append_of_pos all]
  cases rest with
  | nil => simp
  | cons c rest =>
    have stop := (ends c rfl).1
    simp [stop]

theorem afterWhole_of_ends (negative : Bool) (word : Nat) :
    afterWhole negative word [] rest = .ok (wholeNumber negative word, rest) := by
  cases rest with
  | nil => rfl
  | cons c rest =>
    obtain ⟨_, point, lower, upper⟩ := ends c rfl
    simp [afterWhole, lower, upper]

/-- The digits of a word are read as the word. -/
theorem readNumber_digits (negative : Bool) {n : Nat} (small : n ≤ wordMax) :
    readNumber negative (Nat.toDigits 10 n ++ rest) = .ok (wholeNumber negative n, rest) := by
  have all (c : Char) (member : c ∈ Nat.toDigits 10 n) : c.isDigit = true :=
    Decimal.isDigit_of_mem_toDigits member
  have spelled : (Nat.toDigits 10 n).foldl (fun n c => 10 * n + Decimal.digitValue c) 0 = n :=
    Decimal.ofDigits_toDigits n
  obtain ⟨taken, dropped⟩ := takeWhile_isDigit_append ends _ all
  have gathered : gather 0 wordMax (Nat.toDigits 10 n) = (n, []) := by
    rw [gather_eq (by rwa [spelled]), spelled]
  cases digits : Nat.toDigits 10 n with
  | nil => exact absurd digits Nat.toDigits_ne_nil
  | cons first more =>
    have isDigit : first.isDigit = true := all first (by rw [digits]; exact .head _)
    by_cases zero : first = '0'
    · -- Nothing may follow a zero in front, and nothing does.
      have single := Decimal.toDigits_of_head?_eq_zero (by rw [digits, zero]; rfl)
      rw [single] at spelled digits
      obtain ⟨rfl, rfl⟩ := List.cons.inj digits
      obtain rfl : 0 = n := spelled
      cases rest with
      | nil => exact afterWhole_of_ends ends negative 0
      | cons c rest =>
        have stop := (ends c rfl).1
        simp only [List.singleton_append, readNumber, stop, if_true, Bool.false_eq_true, if_false]
        exact afterWhole_of_ends ends negative 0
    · rw [digits] at taken dropped gathered
      rw [List.cons_append] at taken dropped ⊢
      simp only [readNumber, zero, isDigit, if_true, if_false, taken, dropped, gathered]
      exact afterWhole_of_ends ends negative n

end

end SchemaInterfaces.Json
