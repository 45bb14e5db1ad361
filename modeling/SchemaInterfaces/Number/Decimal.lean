import SchemaInterfaces.Number.Binary64

/-!
# Decimal numbers

Decimal texts read as binary numbers, and binary numbers written as decimals. Reading rounds the
exact decimal value once. Writing uses the fewest digits that read back as the same number, and of
those the nearest to it.
-/
namespace SchemaInterfaces

/-- The value `digits * 10 ^ exponent`. -/
structure Decimal where
  digits : Nat
  exponent : Int
  deriving DecidableEq, Repr

namespace Decimal

/-- The decimal digits of a natural number, the first one first. -/
def digitsOf (n : Nat) : List Char := Nat.toDigits 10 n

/-- The value of a digit character. -/
def digitValue (c : Char) : Nat := c.toNat - '0'.toNat

/-- The number that a list of decimal digits spells. -/
def ofDigits (digits : List Char) : Nat :=
  digits.foldl (fun n c => 10 * n + digitValue c) 0

/-- The binary number nearest to a decimal value. -/
def toBinary (negative : Bool) (value : Decimal) : Binary64 :=
  let top : Int := (digitsOf value.digits).length + value.exponent
  if value.digits = 0 ∨ top < -330 then .finite negative 0 Binary64.minExponent
  else if 310 < top then .infinite negative
  else if 0 ≤ value.exponent then
    Binary64.ofRatio negative (value.digits * Nat.pow 10 value.exponent.toNat) 1
  else Binary64.ofRatio negative value.digits (Nat.pow 10 (-value.exponent).toNat)

/-- The largest `k` with `10 ^ k ≤ num / den`, for positive operands. -/
def decimalLog (num den : Nat) : Int :=
  if den ≤ num then ((digitsOf (num / den)).length : Int) - 1
  else -((digitsOf ((den + num - 1) / num - 1)).length : Int)

/-- The interval of reals that round to a finite positive number, in quarters of its last place. -/
structure RoundingInterval where
  low : Nat
  value : Nat
  high : Nat
  closed : Bool

/-- The lower neighbour of a power of two is at half the usual distance. -/
def roundingInterval (mantissa : Nat) (exponent : Int) : RoundingInterval :=
  let low :=
    if mantissa = Nat.pow 2 (Binary64.precision - 1) ∧ Binary64.minExponent < exponent then
      4 * mantissa - 1
    else 4 * mantissa - 2
  ⟨low, 4 * mantissa, 4 * mantissa + 2, mantissa % 2 == 0⟩

/-- The point of the grid of multiples of `10 ^ power` that lies in the interval of the number
`mantissa * 2 ^ exponent` and is nearest to it; of two equally near the even one. -/
def gridPoint? (mantissa : Nat) (exponent power : Int) : Option Nat :=
  let interval := roundingInterval mantissa exponent
  let quarter := exponent - 2
  let step := Nat.pow 10 power.toNat * Nat.pow 2 (-quarter).toNat
  let unit := Nat.pow 2 quarter.toNat * Nat.pow 10 (-power).toNat
  let inside (point : Nat) : Bool :=
    if interval.closed then interval.low * unit ≤ point * step && point * step ≤ interval.high * unit
    else interval.low * unit < point * step && point * step < interval.high * unit
  let below := interval.value * unit / step
  let under := interval.value * unit - below * step
  let above := (below + 1) * step - interval.value * unit
  match inside below, inside (below + 1) with
  | true, true =>
    if under < above then some below
    else if above < under then some (below + 1)
    else if below % 2 = 0 then some below else some (below + 1)
  | true, false => some below
  | false, true => some (below + 1)
  | false, false => none

/-- Tries finer and finer grids, at most `count` of them. -/
def shortestFrom (mantissa : Nat) (exponent : Int) : Nat → Int → Decimal
  | 0, power => ⟨(gridPoint? mantissa exponent power).getD 0, power⟩
  | count + 1, power =>
    match gridPoint? mantissa exponent power with
    | some point => if point = 10 then ⟨1, power + 1⟩ else ⟨point, power⟩
    | none => shortestFrom mantissa exponent count (power - 1)

/-- The decimal with the fewest digits that reads back as `mantissa * 2 ^ exponent`. Seventeen
digits are always enough. -/
def shortest (mantissa : Nat) (exponent : Int) : Decimal :=
  if mantissa = 0 then ⟨0, 0⟩
  else
    let (num, den) := Binary64.ratio mantissa exponent
    shortestFrom mantissa exponent 16 (decimalLog num den)

/-- The digits before the decimal point; a zero stands where there are none. -/
def wholeDigits (value : Decimal) : List Char :=
  let digits := digitsOf value.digits
  if 0 ≤ value.exponent then digits ++ List.replicate value.exponent.toNat '0'
  else
    let whole := digits.take (digits.length - (-value.exponent).toNat)
    if whole.isEmpty then ['0'] else whole

/-- The digits after the decimal point. -/
def fractionDigits (value : Decimal) : List Char :=
  let digits := digitsOf value.digits
  if 0 ≤ value.exponent then []
  else
    let places := (-value.exponent).toNat
    List.replicate (places - digits.length) '0' ++ digits.drop (digits.length - places)

/-- The exponent of the first digit. -/
def leadingExponent (value : Decimal) : Int :=
  value.exponent + ((digitsOf value.digits).length - 1 : Nat)

/-- The text without an exponent; a whole number has no decimal point. -/
def positional (value : Decimal) : String :=
  let fraction := fractionDigits value
  String.ofList (wholeDigits value) ++
    (if fraction.isEmpty then "" else "." ++ String.ofList fraction)

/-- The text with one digit before the point and an exponent with its sign. -/
def scientific (value : Decimal) : String :=
  let exponent := value.leadingExponent
  let exponentText := (if exponent < 0 then "e-" else "e+") ++ String.ofList (digitsOf exponent.natAbs)
  match digitsOf value.digits with
  | [] => "0" ++ exponentText
  | first :: [] => String.ofList [first] ++ exponentText
  | first :: rest => String.ofList (first :: '.' :: rest) ++ exponentText

end Decimal

/-- The value of a text of digits with an optional point and exponent, at least one digit standing
before the exponent: `12`, `1.`, `.5`, `1.5e-3`. -/
def Decimal.ofText? (text : List Char) : Option Decimal :=
  let whole := text.takeWhile Char.isDigit
  let afterWhole := text.dropWhile Char.isDigit
  let (fraction, tail) :=
    match afterWhole with
    | '.' :: rest => (rest.takeWhile Char.isDigit, rest.dropWhile Char.isDigit)
    | rest => ([], rest)
  let digits := whole ++ fraction
  let value (exponent : Int) : Decimal := ⟨ofDigits digits, exponent - fraction.length⟩
  if digits.isEmpty then none
  else
    match tail with
    | [] => some (value 0)
    | mark :: rest =>
      if mark = 'e' ∨ mark = 'E' then
        let (negative, power) :=
          match rest with
          | '-' :: power => (true, power)
          | '+' :: power => (false, power)
          | power => (false, power)
        if power.isEmpty ∨ ¬ power.all Char.isDigit then none
        else
          let exponent : Int := ofDigits power
          some (value (if negative then -exponent else exponent))
      else none

/-- Lower-cases the letters A to Z. -/
def Decimal.foldCase (text : List Char) : List Char := text.map Char.toLower

/-- A number text with an optional sign: a decimal, `inf`, `infinity` or `nan` in any case. -/
def Binary64.ofText? (text : List Char) : Option Binary64 :=
  let (negative, body) :=
    match text with
    | '-' :: rest => (true, rest)
    | '+' :: rest => (false, rest)
    | rest => (false, rest)
  let word := String.ofList (Decimal.foldCase body)
  if word = "inf" ∨ word = "infinity" then some (.infinite negative)
  else if word = "nan" then some .nan
  else (Decimal.ofText? body).map (·.toBinary negative)

/-- The text without an exponent, in the fewest digits that read back. -/
def Binary64.positional : Binary64 → String
  | .nan => "NaN"
  | .infinite negative => if negative then "-inf" else "inf"
  | .finite negative mantissa exponent =>
    (if negative then "-" else "") ++ (Decimal.shortest mantissa exponent).positional

end SchemaInterfaces
