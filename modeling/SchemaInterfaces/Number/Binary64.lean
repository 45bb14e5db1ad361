/-!
# Binary floating-point numbers

The numbers of the IEEE binary64 format as exact values, and rounding of a ratio to the nearest of
them. Products and quotients are the rounded exact results, so every operation is one rounding.
-/
namespace SchemaInterfaces

/-- A binary64 number. A finite one is `mantissa * 2 ^ exponent` with its sign; the mantissa has
53 bits, or fewer at the least exponent. -/
inductive Binary64 where
  | nan
  | infinite (negative : Bool)
  | finite (negative : Bool) (mantissa : Nat) (exponent : Int)
  deriving DecidableEq, Repr

namespace Binary64

/-- Bits of a full mantissa. -/
def precision : Nat := 53

/-- The least exponent, that of the numbers next to zero. -/
def minExponent : Int := -1074

/-- The exponent of the largest finite numbers. -/
def maxExponent : Int := 971

/-- The nearest natural number to a ratio; a half goes to the even neighbour. -/
def roundHalfEven (num den : Nat) : Nat :=
  let quotient := num / den
  let rest := num % den
  if 2 * rest < den then quotient
  else if den < 2 * rest then quotient + 1
  else if quotient % 2 = 0 then quotient else quotient + 1

/-- The largest `e` with `2 ^ e ≤ num / den`, for positive operands. -/
def binaryLog (num den : Nat) : Int :=
  let guess : Int := (num.log2 : Int) - den.log2
  let reached :=
    if 0 ≤ guess then den * Nat.pow 2 guess.toNat ≤ num else den ≤ num * Nat.pow 2 (-guess).toNat
  if reached then guess else guess - 1

/-- A finite number, or infinity when the exponent is too large. -/
def pack (negative : Bool) (mantissa : Nat) (exponent : Int) : Binary64 :=
  if maxExponent < exponent then .infinite negative else .finite negative mantissa exponent

/-- The number nearest to `num / den`, for a positive `den`. -/
def ofRatio (negative : Bool) (num den : Nat) : Binary64 :=
  if num = 0 then .finite negative 0 minExponent
  else
    let exponent := max (binaryLog num den - (precision - 1 : Nat)) minExponent
    let mantissa :=
      if 0 ≤ exponent then roundHalfEven num (den * Nat.pow 2 exponent.toNat)
      else roundHalfEven (num * Nat.pow 2 (-exponent).toNat) den
    if mantissa = Nat.pow 2 precision then pack negative (Nat.pow 2 (precision - 1)) (exponent + 1)
    else pack negative mantissa exponent

/-- The number nearest to a natural number. -/
def ofNat (n : Nat) : Binary64 := ofRatio false n 1

/-- The magnitude of a finite number as a ratio. -/
def ratio (mantissa : Nat) (exponent : Int) : Nat × Nat :=
  if 0 ≤ exponent then (mantissa * Nat.pow 2 exponent.toNat, 1)
  else (mantissa, Nat.pow 2 (-exponent).toNat)

/-- Turns the sign around. -/
def neg : Binary64 → Binary64
  | .nan => .nan
  | .infinite negative => .infinite !negative
  | .finite negative mantissa exponent => .finite (!negative) mantissa exponent

/-- A product with a finite positive factor. -/
def scaleUp : Binary64 → Binary64 → Binary64
  | .finite negative m e, .finite _ n f =>
    let (a, b) := ratio m e
    let (c, d) := ratio n f
    ofRatio negative (a * c) (b * d)
  | x, _ => x

/-- A quotient by a finite positive divisor. -/
def scaleDown : Binary64 → Binary64 → Binary64
  | .finite negative m e, .finite _ n f =>
    let (a, b) := ratio m e
    let (c, d) := ratio n f
    ofRatio negative (a * d) (b * c)
  | x, _ => x

def isZero : Binary64 → Bool
  | .finite _ mantissa _ => mantissa == 0
  | _ => false

def isFinite : Binary64 → Bool
  | .finite _ _ _ => true
  | _ => false

/-- The nearest natural number up to `limit`, a half going up; zero for a negative number and for
a value that is not a number. -/
def toNatSaturating (limit : Nat) : Binary64 → Nat
  | .nan => 0
  | .infinite negative => if negative then 0 else limit
  | .finite negative mantissa exponent =>
    if negative then 0
    else
      let (num, den) := ratio mantissa exponent
      min limit ((2 * num + den) / (2 * den))

end Binary64

end SchemaInterfaces
