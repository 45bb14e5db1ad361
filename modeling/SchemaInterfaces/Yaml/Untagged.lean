import SchemaInterfaces.Document
import SchemaInterfaces.Number.Decimal
import SchemaInterfaces.Number.Digits

/-!
# Values of plain scalars

What a plain scalar without a tag stands for: nothing, a truth value, a number, or else its text.
Integers may be written in four bases; digits that begin with a zero are a text. A tag asks for one
of these readings and refuses every text that does not have it.
-/
namespace SchemaInterfaces.Yaml

def isNull (text : String) : Bool :=
  text == "~" || text == "null" || text == "Null" || text == "NULL"

def boolean? (text : String) : Option Bool :=
  if text = "true" ∨ text = "True" ∨ text = "TRUE" then some true
  else if text = "false" ∨ text = "False" ∨ text = "FALSE" then some false
  else none

/-- Several digits of which the first is a zero, behind an optional sign. -/
def hasLeadingZero (text : List Char) : Bool :=
  let digits := match text with
    | '+' :: rest => rest
    | '-' :: rest => rest
    | rest => rest
  match digits with
  | '0' :: c :: rest => (c :: rest).all Char.isDigit
  | _ => false

/-- The magnitude in one of the marked bases. -/
def marked? : List Char → Option Nat
  | '0' :: 'x' :: digits => Digits.natural? 16 digits
  | '0' :: 'o' :: digits => Digits.natural? 8 digits
  | '0' :: 'b' :: digits => Digits.natural? 2 digits
  | _ => none

/-- An integer as it is written. -/
def integer? (text : List Char) : Option Int :=
  let magnitude? (digits : List Char) : Option Nat :=
    match marked? digits with
    | some n => some n
    | none => if hasLeadingZero text then none else Digits.natural? 10 digits
  match text with
  | '-' :: digits => (magnitude? digits).map fun n => -(n : Int)
  | '+' :: digits => (magnitude? digits).map Int.ofNat
  | digits => (magnitude? digits).map Int.ofNat

/-- How a text does as an integer: it is none, or it has a value that fits 64 bits, or it fits only
128 bits, which is refused. -/
inductive IntegerReading where
  | none
  | value (n : Int)
  | refused

def readInteger (text : List Char) : IntegerReading :=
  match integer? text with
  | some n =>
    if Digits.fitsSigned 64 n || Digits.fitsUnsigned 64 n then .value n
    else if Digits.fitsSigned 128 n || Digits.fitsUnsigned 128 n then .refused
    else .none
  | none => .none

/-- A floating-point number; infinities and the value that is no number have spellings of their
own. -/
def real? (text : List Char) : Option Binary64 :=
  let unsigned := match text with
    | '+' :: rest => rest
    | rest => rest
  let doubled := match text with
    | '+' :: '+' :: _ => true
    | '+' :: '-' :: _ => true
    | _ => false
  let spelling := String.ofList unsigned
  let signed := String.ofList text
  if doubled then none
  else if spelling = ".inf" ∨ spelling = ".Inf" ∨ spelling = ".INF" then some (.infinite false)
  else if signed = "-.inf" ∨ signed = "-.Inf" ∨ signed = "-.INF" then some (.infinite true)
  else if signed = ".nan" ∨ signed = ".NaN" ∨ signed = ".NAN" then some .nan
  else (Binary64.ofText? unsigned).filter Binary64.isFinite

/-- The document of a floating-point number; one that is not finite counts as nothing. -/
def realDocument (value : Binary64) : Document :=
  if value.isFinite then .number (.real value) else .null

/-- The value of a plain scalar without a tag. -/
def untagged? (text : String) : Option Document :=
  if text.isEmpty || isNull text then some .null
  else
    match boolean? text with
    | some value => some (.boolean value)
    | none =>
      match readInteger text.toList with
      | .value n => some (.number (.integer n))
      | .refused => none
      | .none =>
        if hasLeadingZero text.toList then some (.text text)
        else
          match real? text.toList with
          | some value => some (realDocument value)
          | none => some (.text text)

/-- The value of a scalar under a tag. Local tags are refused, tags of no known kind mean text. -/
def tagged? (tag text : String) : Option Document :=
  if tag.toList.head? = some '!' ∨ tag = "tag:yaml.org,2002:null" then none
  else if tag = "tag:yaml.org,2002:bool" then (boolean? text).map .boolean
  else if tag = "tag:yaml.org,2002:int" then
    match readInteger text.toList with
    | .value n => some (.number (.integer n))
    | _ => none
  else if tag = "tag:yaml.org,2002:float" then (real? text.toList).map realDocument
  else some (.text text)

end SchemaInterfaces.Yaml
