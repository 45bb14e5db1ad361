/-!
# Lexical parts of TOML

Blanks, line ends, strings in their four styles, and keys. Each function reads a part from the
front of a text and gives back what is behind it.
-/
namespace SchemaInterfaces.Toml

def isBlank (c : Char) : Bool := c == ' ' || c == '\t'

def skipBlank (text : List Char) : List Char := text.dropWhile isBlank

/-- Characters that may stand in a comment or a string: all but the controls, of which only the tab
is among them. -/
def isPlain (c : Char) : Bool := c == '\t' || (0x20 ≤ c.toNat && c.toNat ≠ 0x7F)

/-- Reads a line break. -/
def newline? : List Char → Option (List Char)
  | '\n' :: rest => some rest
  | '\r' :: '\n' :: rest => some rest
  | _ => none

/-- Passes a comment, if one is here. -/
def skipComment : List Char → List Char
  | '#' :: rest => rest.dropWhile isPlain
  | text => text

/-- Reads the end of a line: blanks, a comment, and a line break or the end of the text. -/
def lineEnd? (text : List Char) : Option (List Char) :=
  match skipComment (skipBlank text) with
  | [] => some []
  | rest => newline? rest

/-- Passes blanks, comments and line breaks. Every round ends a line. -/
def skipLines : Nat → List Char → List Char
  | 0, text => text
  | rounds + 1, text =>
    let rest := skipComment (skipBlank text)
    match newline? rest with
    | some rest => skipLines rounds rest
    | none => rest

/-- The value of a hexadecimal digit. -/
def hexValue? (c : Char) : Option Nat :=
  if c.isDigit then some (c.toNat - '0'.toNat)
  else if 'a' ≤ c ∧ c ≤ 'f' then some (c.toNat - 'a'.toNat + 10)
  else if 'A' ≤ c ∧ c ≤ 'F' then some (c.toNat - 'A'.toNat + 10)
  else none

/-- The character that a number of hexadecimal digits stand for. -/
def hexCharacter? (value : Nat) : Nat → List Char → Option (Char × List Char)
  | 0, rest =>
    if (0xD800 ≤ value ∧ value ≤ 0xDFFF) ∨ 0x10FFFF < value then none
    else some (Char.ofNat value, rest)
  | _ + 1, [] => none
  | count + 1, c :: rest =>
    (hexValue? c).bind fun digit => hexCharacter? (value * 16 + digit) count rest

/-- Reads an escape behind its backslash. -/
def escape? : List Char → Option (Char × List Char)
  | [] => none
  | c :: rest =>
    match c with
    | 'b' => some ('\x08', rest)
    | 't' => some ('\t', rest)
    | 'n' => some ('\n', rest)
    | 'f' => some ('\x0c', rest)
    | 'r' => some ('\r', rest)
    | '"' => some ('"', rest)
    | '\\' => some ('\\', rest)
    | 'u' => hexCharacter? 0 4 rest
    | 'U' => hexCharacter? 0 8 rest
    | _ => none

/-- A text that was read, and what is behind it. -/
abbrev TextStep := Option (List Char × List Char)

/-- Puts a character in front of a text that was read. -/
def consText (c : Char) (step : TextStep) : TextStep :=
  step.map fun (text, rest) => (c :: text, rest)

/-- Reads a basic string behind its quote. Every round reads a character. -/
def basicText : Nat → List Char → TextStep
  | 0, _ => none
  | rounds + 1, text =>
    match text with
    | [] => none
    | '"' :: rest => some ([], rest)
    | '\\' :: rest => (escape? rest).bind fun (c, rest) => consText c (basicText rounds rest)
    | c :: rest => if isPlain c then consText c (basicText rounds rest) else none

/-- Reads a literal string behind its quote. -/
def literalText : List Char → TextStep
  | [] => none
  | '\'' :: rest => some ([], rest)
  | c :: rest => if isPlain c then consText c (literalText rest) else none

/-- Reads quotes inside a block: fewer than three belong to the text, and of more the last three
close it. At most two may stand before them. The flag tells that the block is closed. -/
def blockQuotes? (quote : Char) (text : List Char) : Option (Bool × List Char × List Char) :=
  let run := (text.takeWhile (· == quote)).length
  if run < 3 then some (false, text.take run, text.drop run)
  else if run ≤ 5 then some (true, text.take (run - 3), text.drop run)
  else none

/-- Passes blanks and line breaks. -/
def skipBreaks : List Char → List Char
  | [] => []
  | '\r' :: '\n' :: rest => skipBreaks rest
  | c :: rest => if isBlank c || c == '\n' then skipBreaks rest else c :: rest

/-- Passes the end of a line behind a backslash, and the blanks and line breaks that follow. -/
def continuedLine? (text : List Char) : Option (List Char) :=
  (newline? (skipBlank text)).map skipBreaks

/-- Reads a basic block behind its quotes. Line breaks read as line feeds. Every round reads a
character. -/
def basicBlock : Nat → List Char → TextStep
  | 0, _ => none
  | rounds + 1, text =>
    match text with
    | [] => none
    | '"' :: _ =>
      match blockQuotes? '"' text with
      | some (true, quotes, rest) => some (quotes, rest)
      | some (false, quotes, rest) =>
        (basicBlock rounds rest).map fun (text, rest) => (quotes ++ text, rest)
      | none => none
    | '\\' :: rest =>
      match continuedLine? rest with
      | some rest => basicBlock rounds rest
      | none => (escape? rest).bind fun (c, rest) => consText c (basicBlock rounds rest)
    | c :: rest =>
      match newline? text with
      | some rest => consText '\n' (basicBlock rounds rest)
      | none => if isPlain c then consText c (basicBlock rounds rest) else none

/-- Reads a literal block behind its quotes. Every round reads a character. -/
def literalBlock : Nat → List Char → TextStep
  | 0, _ => none
  | rounds + 1, text =>
    match text with
    | [] => none
    | '\'' :: _ =>
      match blockQuotes? '\'' text with
      | some (true, quotes, rest) => some (quotes, rest)
      | some (false, quotes, rest) =>
        (literalBlock rounds rest).map fun (text, rest) => (quotes ++ text, rest)
      | none => none
    | c :: rest =>
      match newline? text with
      | some rest => consText '\n' (literalBlock rounds rest)
      | none => if isPlain c then consText c (literalBlock rounds rest) else none

/-- A line break right behind the opening quotes of a block does not count. -/
def dropFirstBreak (text : List Char) : List Char := (newline? text).getD text

/-- Reads a string in any style. -/
def string? (text : List Char) : TextStep :=
  match text with
  | '"' :: '"' :: '"' :: rest => basicBlock (rest.length + 1) (dropFirstBreak rest)
  | '"' :: rest => basicText (rest.length + 1) rest
  | '\'' :: '\'' :: '\'' :: rest => literalBlock (rest.length + 1) (dropFirstBreak rest)
  | '\'' :: rest => literalText rest
  | _ => none

/-- Characters of a key without quotes. -/
def isBare (c : Char) : Bool := c.isAlphanum || c == '_' || c == '-'

/-- Reads one key; a quoted one stays on its line. -/
def simpleKey? (text : List Char) : TextStep :=
  match text with
  | '"' :: rest => basicText (rest.length + 1) rest
  | '\'' :: rest => literalText rest
  | _ =>
    let key := text.takeWhile isBare
    if key.isEmpty then none else some (key, text.drop key.length)

/-- Reads keys with dots between them. Blanks may stand around the dots, and are passed behind the
last key. Every round reads a key. -/
def keyPath? : Nat → List Char → Option (List String × List Char)
  | 0, _ => none
  | rounds + 1, text => do
    let (key, rest) ← simpleKey? (skipBlank text)
    match skipBlank rest with
    | '.' :: rest =>
      let (keys, rest) ← keyPath? rounds rest
      return (String.ofList key :: keys, rest)
    | rest => return ([String.ofList key], rest)

end SchemaInterfaces.Toml
