import SchemaInterfaces.Document
import SchemaInterfaces.Json.Quoted
import SchemaInterfaces.Number.Decimal

/-!
# Compact JSON text

The JSON text of a document without any space. Integers are written as digits. A floating-point
number has the fewest digits that read back, positional notation while its leading exponent lies
between -5 and 15 and an exponent otherwise; a number without one is written `null`.
-/
namespace SchemaInterfaces.Json

/-- Leading exponents that are written without an exponent part. -/
def leastPositional : Int := -5

def greatestPositional : Int := 15

/-- The text of a finite magnitude. Positional notation always has a decimal point. -/
def realText (value : Decimal) : String :=
  let exponent := value.leadingExponent
  if leastPositional ≤ exponent ∧ exponent ≤ greatestPositional then
    if 0 ≤ value.exponent then value.positional ++ ".0" else value.positional
  else value.scientific

def integerText (value : Int) : String :=
  match value with
  | .ofNat n => String.ofList (Decimal.digitsOf n)
  | .negSucc n => "-" ++ String.ofList (Decimal.digitsOf (n + 1))

def numberText : Number → String
  | .integer value => integerText value
  | .real (.finite negative mantissa exponent) =>
    (if negative then "-" else "") ++ realText (Decimal.shortest mantissa exponent)
  | .real _ => "null"

mutual

/-- The compact text of a document. -/
def write : Document → String
  | .null => "null"
  | .boolean value => if value then "true" else "false"
  | .number value => numberText value
  | .text value => quoted value
  | .sequence items => "[" ++ writeItems items ++ "]"
  | .mapping entries => "\x7b" ++ writeEntries entries ++ "\x7d"

/-- Items with commas between them. -/
def writeItems : List Document → String
  | [] => ""
  | [item] => write item
  | item :: rest => write item ++ "," ++ writeItems rest

/-- Entries with commas between them. -/
def writeEntries : List (String × Document) → String
  | [] => ""
  | [(key, value)] => quoted key ++ ":" ++ write value
  | (key, value) :: rest => quoted key ++ ":" ++ write value ++ "," ++ writeEntries rest

end

end SchemaInterfaces.Json
