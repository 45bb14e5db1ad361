import Mathlib.Data.List.Basic
import SchemaInterfaces.Number.Decimal
import SchemaInterfaces.Number.Digits

/-!
# Decimal digits of a natural number

The digits of a number spell it again, all of them are decimal digits, and only zero begins with a
zero. A number below the largest one with a sign is one of 64 bits, and an integer of 64 bits is read
from its text.
-/
namespace SchemaInterfaces.Decimal

theorem ofDigits_toDigits (n : Nat) : ofDigits (Nat.toDigits 10 n) = n :=
  Nat.ofDigitChars_ten_toDigits

theorem isDigit_of_mem_toDigits {n : Nat} {c : Char} (member : c ∈ Nat.toDigits 10 n) :
    c.isDigit = true :=
  Nat.isDigit_of_mem_toDigits (by decide) (by decide) member

/-- A zero in front is the whole number. -/
theorem toDigits_of_head?_eq_zero {n : Nat} (zero : (Nat.toDigits 10 n).head? = some '0') :
    Nat.toDigits 10 n = ['0'] := by
  induction n using Nat.strongRecOn with
  | _ n ih =>
    by_cases small : n < 10
    · rw [Nat.toDigits_of_lt_base small] at zero ⊢
      rw [List.head?_cons, Option.some.injEq] at zero
      rw [zero]
    · have split := Nat.toDigits_of_base_le (by decide) (Nat.le_of_not_lt small)
      rw [split, List.head?_append_of_ne_nil _ Nat.toDigits_ne_nil] at zero
      have front := ih (n / 10) (by omega) zero
      -- The digits in front spell the tenth part, which is not zero.
      have spelled := ofDigits_toDigits (n / 10)
      rw [front] at spelled
      have tenth : n / 10 = 0 := spelled.symm
      omega

end SchemaInterfaces.Decimal

namespace SchemaInterfaces.Digits

theorem isWord_natCast {n : Nat} (small : n ≤ maxSigned) : isWord (n : Int) = true := by
  have limit : Nat.pow 2 63 = 9223372036854775808 := rfl
  simp only [maxSigned, limit] at small
  simp only [isWord, fitsSigned, Nat.reduceSub, limit, Bool.and_eq_true, decide_eq_true_eq]
  omega

theorem toNat_of_isDigit {c : Char} (digit : c.isDigit = true) :
    '0'.toNat ≤ c.toNat ∧ c.toNat ≤ '9'.toNat := by
  simpa [Char.isDigit, UInt32.le_iff_toNat_le] using digit

theorem value?_of_isDigit {c : Char} (digit : c.isDigit = true) :
    value? 10 c = some (Decimal.digitValue c) := by
  have small : c.toNat - '0'.toNat < 10 := by
    have bounds := toNat_of_isDigit digit
    have zero : '0'.toNat = 48 := rfl
    have nine : '9'.toNat = 57 := rfl
    omega
  rw [value?, if_pos digit, if_pos small, Decimal.digitValue]

/-- Decimal digits spell the number that they are of. -/
theorem natural?_toDigits (n : Nat) : natural? 10 (Nat.toDigits 10 n) = some n := by
  have step (digits : List Char) (all : ∀ c ∈ digits, c.isDigit = true) (front : Nat) :
      digits.foldlM (fun n c => (value? 10 c).map (n * 10 + ·)) front =
        some (digits.foldl (fun n c => 10 * n + Decimal.digitValue c) front) := by
    induction digits generalizing front with
    | nil => rfl
    | cons c rest ih =>
      obtain ⟨digit, others⟩ := List.forall_mem_cons.mp all
      rw [List.foldlM_cons, value?_of_isDigit digit, List.foldl_cons, Nat.mul_comm 10]
      exact ih others _
  have nonempty : (Nat.toDigits 10 n).isEmpty = false :=
    List.isEmpty_eq_false_iff.mpr Nat.toDigits_ne_nil
  rw [natural?, nonempty, if_neg (by simp),
    step _ (fun _ member => Decimal.isDigit_of_mem_toDigits member)]
  exact congrArg some (Decimal.ofDigits_toDigits n)

theorem toList_toString_ofNat (n : Nat) :
    (toString (Int.ofNat n)).toList = Nat.toDigits 10 n := by
  rw [show toString (Int.ofNat n) = toString n from rfl, Nat.toString_eq_ofList_toDigits,
    String.toList_ofList]

theorem toList_toString_negSucc (n : Nat) :
    (toString (Int.negSucc n)).toList = '-' :: Nat.toDigits 10 (n + 1) := by
  rw [show toString (Int.negSucc n) = "-" ++ toString (n + 1) from rfl,
    Nat.toString_eq_ofList_toDigits]
  simp

/-- The text of an integer of 64 bits is read as the integer. -/
theorem signed?_toString {n : Int} (word : isWord n = true) :
    signed? 10 (toString n).toList = some n := by
  cases n with
  | ofNat n =>
    have noSign (sign : Char) (rest : List Char) (other : sign.isDigit = false) :
        Nat.toDigits 10 n ≠ sign :: rest := fun same => by
      have digit := Decimal.isDigit_of_mem_toDigits (n := n) (c := sign) (by rw [same]; exact .head _)
      rw [other] at digit
      cases digit
    rw [toList_toString_ofNat, signed?, natural?_toDigits]
    · rw [Option.map_some, Option.filter_some, if_pos word]
    · exact fun rest same => noSign '-' rest rfl same
    · exact fun rest same => noSign '+' rest rfl same
  | negSucc n =>
    rw [toList_toString_negSucc, signed?, natural?_toDigits]
    change Option.filter isWord (some (Int.negSucc n)) = some (Int.negSucc n)
    rw [Option.filter_some, if_pos word]

end SchemaInterfaces.Digits
