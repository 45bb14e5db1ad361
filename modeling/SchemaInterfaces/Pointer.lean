import SchemaInterfaces.Document
import SchemaInterfaces.Number.Decimal

/-!
# Pointers into a document

A pointer is a text that selects a sub-document: the empty text selects the whole, and every
further step is written as a slash and a token. In a token `~1` stands for a slash and `~0` for a
tilde. A sequence is entered by a position in plain decimal.
-/
namespace SchemaInterfaces.Pointer

/-- The parts between slashes. -/
def splitSlash : List Char → List (List Char)
  | [] => [[]]
  | c :: rest =>
    if c = '/' then [] :: splitSlash rest
    else
      match splitSlash rest with
      | [] => [[c]]
      | part :: parts => (c :: part) :: parts

/-- Replaces the escape `~` with the given digit by a character. -/
def unescape (digit replacement : Char) : List Char → List Char
  | [] => []
  | [c] => [c]
  | c :: d :: rest =>
    if c = '~' ∧ d = digit then replacement :: unescape digit replacement rest
    else c :: unescape digit replacement (d :: rest)

/-- The key or position that a token spells: slashes are restored first, then tildes. -/
def decodeToken (token : List Char) : List Char :=
  unescape '0' '~' (unescape '1' '/' token)

/-- The tokens of a pointer; a text that is not empty has to start with a slash. -/
def tokens? (pointer : String) : Option (List (List Char)) :=
  match pointer.toList with
  | [] => some []
  | '/' :: rest => some ((splitSlash rest).map decodeToken)
  | _ => none

/-- The position that a token spells: decimal digits without a leading zero. -/
def position? (token : List Char) : Option Nat :=
  if token.isEmpty ∨ ¬ token.all Char.isDigit ∨ (token.head? = some '0' ∧ token.length ≠ 1) then
    none
  else some (Decimal.ofDigits token)

/-- One step into a document. -/
def enter? (document : Document) (token : List Char) : Option Document :=
  match document with
  | .mapping entries => entries.lookup (String.ofList token)
  | .sequence items => (position? token).bind fun index => items[index]?
  | _ => none

/-- Follows the tokens one after the other. -/
def follow? (document : Document) : List (List Char) → Option Document
  | [] => some document
  | token :: rest => (enter? document token).bind fun inner => follow? inner rest

/-- The sub-document that a pointer selects. -/
def select? (document : Document) (pointer : String) : Option Document :=
  (tokens? pointer).bind (follow? document)

end SchemaInterfaces.Pointer
