import SchemaInterfaces.Number.Digits

/-!
# Key expressions

A key with dots and brackets names a place below the top level: `output.indent`, `lists[0].name`.
A key that is no such expression stands for itself.
-/
namespace SchemaInterfaces

/-- One step of a key expression: to the value of a key, or to a place in a list, which counts from
the end where it is negative. -/
inductive KeyStep where
  | key (name : String)
  | index (position : Int)
  deriving DecidableEq, Repr

namespace KeyExpression

/-- Characters of a key within an expression. -/
def isKeyCharacter (c : Char) : Bool := c.isAlphanum || c == ' ' || c == '_' || c == '-'

def isSpace (c : Char) : Bool := c == ' ' || c == '\t'

/-- A key and what follows it. -/
def key? (text : List Char) : Option (KeyStep × List Char) :=
  let name := text.takeWhile isKeyCharacter
  if name.isEmpty then none else some (.key (String.ofList name), text.dropWhile isKeyCharacter)

/-- A position up to and with the closing bracket. -/
def index? (text : List Char) : Option (KeyStep × List Char) :=
  let text := text.dropWhile isSpace
  let (negative, text) :=
    match text with
    | '-' :: rest => (true, rest)
    | rest => (false, rest)
  let digits := text.takeWhile Char.isDigit
  match (text.dropWhile Char.isDigit).dropWhile isSpace with
  | ']' :: rest =>
    (Digits.natural? 10 digits).bind fun n =>
      let position : Int := if negative then -n else n
      if Digits.isWord position then some (.index position, rest) else none
  | _ => none

/-- The steps behind the first key; every step takes a character. -/
def steps? : Nat → List Char → Option (List KeyStep)
  | _, [] => some []
  | 0, _ => none
  | count + 1, text => do
    let (step, rest) ←
      match text with
      | '.' :: rest => key? rest
      | '[' :: rest => index? rest
      | _ => none
    return step :: (← steps? count rest)

/-- The steps that a key stands for. -/
def stepsOf (text : String) : List KeyStep :=
  let read : Option (List KeyStep) := do
    let (step, rest) ← key? text.toList
    return step :: (← steps? rest.length rest)
  read.getD [.key text]

end KeyExpression

end SchemaInterfaces
