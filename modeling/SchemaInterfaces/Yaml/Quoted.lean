import SchemaInterfaces.Yaml.Folding

/-!
# Quoted scalars

Scalars between single or double quotes. Between single quotes only the quote itself is escaped, by
writing it twice; between double quotes a backslash begins an escape.
-/
namespace SchemaInterfaces.Yaml

/-- The value of a hexadecimal digit. -/
def hexValue? (c : Char) : Option Nat :=
  if c.isDigit then some (c.toNat - '0'.toNat)
  else if 'a' ≤ c ∧ c ≤ 'f' then some (c.toNat - 'a'.toNat + 10)
  else if 'A' ≤ c ∧ c ≤ 'F' then some (c.toNat - 'A'.toNat + 10)
  else none

/-- The value of exactly `count` hexadecimal digits at the front of a text. -/
def hexNumber? (value : Nat) : Nat → List Char → Option Nat
  | 0, _ => some value
  | _ + 1, [] => none
  | count + 1, c :: rest => (hexValue? c).bind fun digit => hexNumber? (value * 16 + digit) count rest

/-- The character of an escape of one letter. -/
def letterEscape? (c : Char) : Option Char :=
  match c with
  | '0' => some '\x00'
  | 'a' => some '\x07'
  | 'b' => some '\x08'
  | 't' => some '\t'
  | '\t' => some '\t'
  | 'n' => some '\n'
  | 'v' => some '\x0b'
  | 'f' => some '\x0c'
  | 'r' => some '\r'
  | 'e' => some '\x1b'
  | ' ' => some ' '
  | '"' => some '"'
  | '/' => some '/'
  | '\\' => some '\\'
  | 'N' => some '\u0085'
  | '_' => some '\u00a0'
  | 'L' => some '\u2028'
  | 'P' => some '\u2029'
  | _ => none

/-- The number of digits of a numeric escape. -/
def escapeDigits? (c : Char) : Option Nat :=
  if c = 'x' then some 2 else if c = 'u' then some 4 else if c = 'U' then some 8 else none

/-- A character by its number; surrogates and numbers beyond the last character are none. -/
def character? (code : Nat) : Option Char :=
  if (0xD800 ≤ code ∧ code ≤ 0xDFFF) ∨ 0x10FFFF < code then none else some (Char.ofNat code)

/-- The character of an escape behind its backslash, and the number of characters that it takes. -/
def escape? : List Char → Option (Char × Nat)
  | [] => none
  | c :: rest =>
    match escapeDigits? c with
    | some digits => do
      let code ← hexNumber? 0 digits rest
      return (← character? code, digits + 1)
    | none => (letterEscape? c).map (·, 1)

/-- Reads up to a blank, a break or the closing quote. An escaped line break ends the word as well
and is told by the flag. Every round reads a character. -/
def readQuotedWord? (quote : Char) :
    Nat → String → Cursor → Option (String × Bool × Cursor)
  | 0, text, cursor => some (text, false, cursor)
  | rounds + 1, text, cursor =>
    match cursor.rest with
    | [] => some (text, false, cursor)
    | c :: rest =>
      if isBlank c || isBreak c then some (text, false, cursor)
      else if quote == '\'' && c == '\'' && rest.head? == some '\'' then
        readQuotedWord? quote rounds (text.push '\'') (cursor.advance 2)
      else if c == quote then some (text, false, cursor)
      else if quote == '"' && c == '\\' then
        if rest.head?.any isBreak then some (text, true, (cursor.advance 1).readBreak.2)
        else
          match escape? rest with
          | none => none
          | some (meaning, length) =>
            readQuotedWord? quote rounds (text.push meaning) (cursor.advance (length + 1))
      else readQuotedWord? quote rounds (text.push c) (cursor.advance 1)

/-- Reads words and gaps up to and with the closing quote. Every round reads a character. -/
def readQuoted? (quote : Char) : Nat → String → Cursor → Option (String × Cursor)
  | 0, _, _ => none
  | rounds + 1, text, cursor =>
    if cursor.atDocumentMark || cursor.rest.isEmpty then none
    else
      match readQuotedWord? quote cursor.rest.length text cursor with
      | none => none
      | some (text, escapedBreak, cursor) =>
        if cursor.rest.head? == some quote then some (text, cursor.advance 1)
        else
          match Gap.read? 0 cursor.rest.length { broken := escapedBreak } cursor with
          | none => none
          | some (gap, cursor) => readQuoted? quote rounds (text ++ gap.fold) cursor

/-- The quoted scalar whose opening quote is here. -/
def quotedScalar? (quote : Char) (cursor : Cursor) : Option (String × Cursor) :=
  readQuoted? quote (cursor.rest.length + 1) "" (cursor.advance 1)

end SchemaInterfaces.Yaml
