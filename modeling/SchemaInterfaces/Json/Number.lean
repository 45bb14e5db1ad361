import SchemaInterfaces.Document
import SchemaInterfaces.Json.Fault
import SchemaInterfaces.Number.Decimal

/-!
# Numbers of a JSON text

An integer that fits 64 bits is read exactly. Every other number is floating-point and is read in
two roundings: the leading digits that fit an unsigned 64-bit word are converted, then multiplied
or divided by a power of ten. Digits beyond the word only move the exponent.
-/
namespace SchemaInterfaces.Json

/-- The largest unsigned word that collects digits. -/
def wordMax : Nat := Nat.pow 2 64 - 1

/-- The largest exponent that is collected exactly. -/
def exponentMax : Nat := Nat.pow 2 31 - 1

/-- Appends digits to a word while it fits, and returns the digits that no longer do. -/
def gather (word limit : Nat) : List Char → Nat × List Char
  | [] => (word, [])
  | digit :: rest =>
    let next := 10 * word + Decimal.digitValue digit
    if next ≤ limit then gather next limit rest else (word, digit :: rest)

/-- The largest power of ten in the format. -/
def powerMax : Nat := 308

def powerOfTen (n : Nat) : Binary64 := Binary64.ofNat (Nat.pow 10 n)

/-- Multiplies by a power of ten in steps that the format can hold. Nothing is returned when the
result is too large. Three steps down reach zero from any word. -/
def scale (value : Binary64) (exponent : Int) : Nat → Option Binary64
  | 0 => some value
  | steps + 1 =>
    if exponent.natAbs ≤ powerMax then
      if 0 ≤ exponent then
        let product := value.scaleUp (powerOfTen exponent.natAbs)
        if product.isFinite then some product else none
      else some (value.scaleDown (powerOfTen exponent.natAbs))
    else if value.isZero then some value
    else if 0 ≤ exponent then none
    else scale (value.scaleDown (powerOfTen powerMax)) (exponent + powerMax) steps

/-- A number with the text behind it. -/
abbrev NumberStep := Except Stop (Number × List Char)

/-- A floating-point number from its word and exponent. -/
def realOf (negative : Bool) (word : Nat) (exponent : Int) (rest : List Char) : NumberStep :=
  match scale (Binary64.ofNat word) exponent 4 with
  | some value => .ok (.real (if negative then value.neg else value), rest)
  | none => .error (.before .numberOutOfRange rest)

/-- Reads the exponent part behind its mark. An exponent too large to collect makes a number zero
or too large. -/
def exponentPart (negative : Bool) (word : Nat) (exponent : Int) (text : List Char) : NumberStep :=
  let (down, digits) :=
    match text with
    | '+' :: rest => (false, rest)
    | '-' :: rest => (true, rest)
    | rest => (false, rest)
  match digits with
  | [] => .error (.before .endInValue [])
  | first :: _ =>
    if ¬ first.isDigit then .error (.afterByte .invalidNumber digits)
    else
      let rest := digits.dropWhile Char.isDigit
      let (power, beyond) := gather 0 exponentMax (digits.takeWhile Char.isDigit)
      if beyond.isEmpty then
        realOf negative word (if down then exponent - power else exponent + power) rest
      else if word ≠ 0 ∧ ¬ down then
        .error (.before .numberOutOfRange (beyond.drop 1 ++ rest))
      else .ok (.real (.finite negative 0 Binary64.minExponent), rest)

/-- Reads an exponent part if there is one. -/
def exponentTail (negative : Bool) (word : Nat) (exponent : Int) (text : List Char) : NumberStep :=
  match text with
  | c :: rest =>
    if c = 'e' ∨ c = 'E' then exponentPart negative word exponent rest
    else realOf negative word exponent text
  | [] => realOf negative word exponent text

/-- Reads the digits behind the decimal point, at least one. -/
def fractionPart (negative : Bool) (word : Nat) (exponent : Int) (text : List Char) : NumberStep :=
  let digits := text.takeWhile Char.isDigit
  let rest := text.dropWhile Char.isDigit
  let (word, beyond) := gather word wordMax digits
  if digits.isEmpty then
    .error (if rest.isEmpty then .before .endInValue [] else .afterByte .invalidNumber rest)
  else exponentTail negative word (exponent - (digits.length - beyond.length : Nat)) rest

/-- An integer that stands alone. A magnitude beyond the signed range and a negative zero are
floating-point. -/
def wholeNumber (negative : Bool) (word : Nat) : Number :=
  if ¬ negative then .integer word
  else if word = 0 ∨ Nat.pow 2 63 < word then .real (Binary64.ofNat word).neg
  else .integer (-(word : Int))

/-- Reads what may follow the digits before the decimal point. -/
def afterWhole (negative : Bool) (word : Nat) (beyond rest : List Char) : NumberStep :=
  match rest with
  | '.' :: tail => fractionPart negative word beyond.length tail
  | c :: tail =>
    if c = 'e' ∨ c = 'E' then exponentPart negative word beyond.length tail
    else if beyond.isEmpty then .ok (wholeNumber negative word, rest)
    else realOf negative word beyond.length rest
  | [] =>
    if beyond.isEmpty then .ok (wholeNumber negative word, rest)
    else realOf negative word beyond.length rest

/-- Reads a number behind its sign. A leading zero stands alone. -/
def readNumber (negative : Bool) (text : List Char) : NumberStep :=
  match text with
  | [] => .error (.before .endInValue [])
  | first :: tail =>
    if first = '0' then
      match tail with
      | c :: _ =>
        if c.isDigit then .error (.afterByte .invalidNumber tail)
        else afterWhole negative 0 [] tail
      | [] => afterWhole negative 0 [] []
    else if first.isDigit then
      let (word, beyond) := gather 0 wordMax (text.takeWhile Char.isDigit)
      afterWhole negative word beyond (text.dropWhile Char.isDigit)
    else .error (.afterByte .invalidNumber text)

end SchemaInterfaces.Json
