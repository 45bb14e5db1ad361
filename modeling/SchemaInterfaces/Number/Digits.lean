/-!
# Numbers spelled by digits

Natural numbers in bases up to sixteen, and integers of 64 bits with an optional sign.
-/
namespace SchemaInterfaces.Digits

/-- The value of a digit of a base. -/
def value? (base : Nat) (c : Char) : Option Nat :=
  let value :=
    if c.isDigit then c.toNat - '0'.toNat
    else if 'a' ≤ c ∧ c ≤ 'f' then c.toNat - 'a'.toNat + 10
    else if 'A' ≤ c ∧ c ≤ 'F' then c.toNat - 'A'.toNat + 10
    else base
  if value < base then some value else none

/-- The number that digits spell; there has to be one. -/
def natural? (base : Nat) (digits : List Char) : Option Nat :=
  if digits.isEmpty then none
  else digits.foldlM (fun n c => (value? base c).map (n * base + ·)) 0

/-- Whether an integer has at most so many bits and a sign. -/
def fitsSigned (bits : Nat) (n : Int) : Bool :=
  -(Nat.pow 2 (bits - 1) : Int) ≤ n && n < Nat.pow 2 (bits - 1)

/-- Whether an integer has at most so many bits and no sign. -/
def fitsUnsigned (bits : Nat) (n : Int) : Bool := 0 ≤ n && n < Nat.pow 2 bits

/-- Whether an integer is one of 64 bits with a sign. -/
def isWord (n : Int) : Bool := fitsSigned 64 n

/-- The largest number of 64 bits with a sign. -/
def maxSigned : Nat := Nat.pow 2 63 - 1

/-- The largest number of 64 bits without a sign. -/
def maxUnsigned : Nat := Nat.pow 2 64 - 1

/-- An integer of 64 bits, which may have a sign of either kind. -/
def signed? (base : Nat) (text : List Char) : Option Int :=
  let value? : Option Int :=
    match text with
    | '-' :: digits => (natural? base digits).map fun n => -(n : Int)
    | '+' :: digits => (natural? base digits).map Int.ofNat
    | digits => (natural? base digits).map Int.ofNat
  value?.filter isWord

/-- A natural number of 64 bits, which may have a plus sign. -/
def unsigned? (text : List Char) : Option Nat :=
  let value? :=
    match text with
    | '+' :: digits => natural? 10 digits
    | digits => natural? 10 digits
  value?.filter (· ≤ maxUnsigned)

end SchemaInterfaces.Digits
