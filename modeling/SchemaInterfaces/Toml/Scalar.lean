import SchemaInterfaces.Document
import SchemaInterfaces.Number.Decimal
import SchemaInterfaces.Number.Digits

/-!
# Scalars of TOML

Truth values, integers in four bases, floating-point numbers, dates and times. A date or time reads
as a text in its normal form.
-/
namespace SchemaInterfaces.Toml

/-- The digits of a number without the underscores between them. An underscore needs a digit on
either side. -/
def digits? (isDigit : Char → Bool) : List Char → Option (List Char)
  | [] => none
  | [c] => if isDigit c then some [c] else none
  | c :: '_' :: rest => if isDigit c then (digits? isDigit rest).map (c :: ·) else none
  | c :: rest => if isDigit c then (digits? isDigit rest).map (c :: ·) else none

/-- The number that digits of a base spell. -/
def natural? (base : Nat) (text : List Char) : Option Nat :=
  (digits? (fun c => (Digits.value? base c).isSome) text).bind (Digits.natural? base)

/-- Sign and rest of a number. -/
def splitSign : List Char → Bool × List Char
  | '-' :: rest => (true, rest)
  | '+' :: rest => (false, rest)
  | rest => (false, rest)

/-- The digits of a decimal integer, which has no needless leading zero. -/
def decimalDigits? (text : List Char) : Option (List Char) :=
  match digits? Char.isDigit text with
  | some digits => if digits.head? = some '0' ∧ digits.length ≠ 1 then none else some digits
  | none => none

/-- An integer of 64 bits. Only decimal ones have a sign. -/
def integer? (text : List Char) : Option Int :=
  let value? : Option Int :=
    match text with
    | '0' :: 'x' :: rest => (natural? 16 rest).map Int.ofNat
    | '0' :: 'o' :: rest => (natural? 8 rest).map Int.ofNat
    | '0' :: 'b' :: rest => (natural? 2 rest).map Int.ofNat
    | _ =>
      let (negative, rest) := splitSign text
      (decimalDigits? rest).map fun digits =>
        let n : Int := Decimal.ofDigits digits
        if negative then -n else n
  value?.filter Digits.isWord

/-- The digits of an exponent with its sign. -/
def exponentDigits? (text : List Char) : Option (List Char) :=
  match text with
  | '+' :: rest => digits? Char.isDigit rest
  | '-' :: rest => (digits? Char.isDigit rest).map ('-' :: ·)
  | rest => digits? Char.isDigit rest

def isExponentMark (c : Char) : Bool := c == 'e' || c == 'E'

/-- A floating-point number: a decimal with a fraction or an exponent. A positive one beyond all
finite numbers is refused. -/
def real? (text : List Char) : Option Binary64 := do
  let (negative, body) := splitSign text
  if body = ['i', 'n', 'f'] then return .infinite negative
  else if body = ['n', 'a', 'n'] then return .nan
  else
    let mantissa := body.takeWhile (!isExponentMark ·)
    let exponent ←
      match body.drop mantissa.length with
      | [] => some []
      | _ :: rest => (exponentDigits? rest).map ('e' :: ·)
    let whole := mantissa.takeWhile (· != '.')
    let wholeDigits ← decimalDigits? whole
    let fraction ←
      match mantissa.drop whole.length with
      | [] => some []
      | _ :: rest => (digits? Char.isDigit rest).map ('.' :: ·)
    if exponent.isEmpty && fraction.isEmpty then none
    else
      let value ← (Decimal.ofText? (wholeDigits ++ fraction ++ exponent)).map (·.toBinary negative)
      if value = .infinite false then none else some value

/-- The number of exactly so many digits. -/
def fixedNumber? (count : Nat) (text : List Char) : Option Nat :=
  if text.length = count ∧ text.all Char.isDigit then some (Decimal.ofDigits text) else none

def isLeapYear (year : Nat) : Bool :=
  year % 4 == 0 && (year % 100 != 0 || year % 400 == 0)

def daysInMonth (year month : Nat) : Nat :=
  if month = 2 then (if isLeapYear year then 29 else 28)
  else if month = 4 ∨ month = 6 ∨ month = 9 ∨ month = 11 then 30
  else 31

/-- A date such as `1979-05-27`; its normal form is the text itself. -/
def isDate (text : List Char) : Bool :=
  match fixedNumber? 4 (text.take 4), text[4]?, fixedNumber? 2 ((text.drop 5).take 2), text[7]?,
      fixedNumber? 2 (text.drop 8) with
  | some year, some '-', some month, some '-', some day =>
    1 ≤ month && month ≤ 12 && 1 ≤ day && day ≤ daysInMonth year month
  | _, _, _, _, _ => false

/-- The number of seconds and more of a time, without zeros at its end and cut after nine
digits. -/
def fractionText? (text : List Char) : Option (List Char) :=
  match text with
  | [] => some []
  | '.' :: digits =>
    if digits.isEmpty ∨ ¬ digits.all Char.isDigit then none
    else
      let shown := ((digits.take 9).reverse.dropWhile (· == '0')).reverse
      some (if shown.isEmpty then [] else '.' :: shown)
  | _ => none

/-- Hours and minutes such as `07:32`. -/
def isHourMinute (text : List Char) : Bool :=
  match fixedNumber? 2 (text.take 2), text[2]?, fixedNumber? 2 (text.drop 3) with
  | some hour, some ':', some minute => hour ≤ 23 && minute ≤ 59
  | _, _, _ => false

/-- The normal form of a time such as `07:32:00.5`. -/
def timeText? (text : List Char) : Option (List Char) :=
  match text[5]?, fixedNumber? 2 ((text.drop 6).take 2) with
  | some ':', some second =>
    if isHourMinute (text.take 5) ∧ second ≤ 60 then
      (fractionText? (text.drop 8)).map (text.take 8 ++ ·)
    else none
  | _, _ => none

/-- The normal form of an offset: none, `Z`, or a sign with hours and minutes. A zero offset is
positive. -/
def offsetText? (text : List Char) : Option (List Char) :=
  match text with
  | [] => some []
  | [c] => if c = 'Z' ∨ c = 'z' then some ['Z'] else none
  | sign :: rest =>
    if (sign = '+' ∨ sign = '-') ∧ isHourMinute rest then
      some ((if rest = "00:00".toList then '+' else sign) :: rest)
    else none

/-- The normal form of a time with an optional offset. -/
def offsetTimeText? (text : List Char) : Option (List Char) := do
  let time := text.takeWhile fun c => c.isDigit || c == ':' || c == '.'
  let timeText ← timeText? time
  let offset ← offsetText? (text.drop time.length)
  return timeText ++ offset

/-- The normal form of a date, a time, or both with a `T` between them. -/
def dateTimeText? (text : List Char) : Option (List Char) :=
  if isDate (text.take 10) then
    match text.drop 10 with
    | [] => some text
    | mark :: rest =>
      if mark = 'T' ∨ mark = 't' ∨ mark = ' ' then
        (offsetTimeText? rest).map fun time => text.take 10 ++ 'T' :: time
      else none
  else timeText? text

/-- Characters of scalars without quotes. -/
def isScalarCharacter (c : Char) : Bool :=
  c.isAlphanum || c == '+' || c == '-' || c == '.' || c == '_' || c == ':'

/-- The word of a scalar. A blank may stand between a date and a time. -/
def scalarWord (text : List Char) : List Char :=
  let word := text.takeWhile isScalarCharacter
  match text.drop word.length with
  | ' ' :: c :: rest =>
    if isDate word ∧ c.isDigit then word ++ ' ' :: (c :: rest).takeWhile isScalarCharacter else word
  | _ => word

/-- The value of the word of a scalar. -/
def scalar? (word : List Char) : Option Document :=
  if word = "true".toList then some (.boolean true)
  else if word = "false".toList then some (.boolean false)
  else
    match dateTimeText? word with
    | some text => some (.text (String.ofList text))
    | none =>
      match integer? word with
      | some n => some (.number (.integer n))
      | none => (real? word).map fun value => .number (.real value)

end SchemaInterfaces.Toml
