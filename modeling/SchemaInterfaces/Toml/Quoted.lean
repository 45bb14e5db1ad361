/-!
# Strings written in TOML

A text in the plainest of the four styles that can hold it. Control characters call for a style
with escapes, a line feed for a block, and quotes for a style without that quote.
-/
namespace SchemaInterfaces.Toml

/-- The four ways to write a string. -/
inductive Style where
  | basic
  | literal
  | basicBlock
  | literalBlock
  deriving DecidableEq, Repr

/-- Characters that need an escape wherever they stand. -/
def isControl (c : Char) : Bool :=
  (c.toNat < 0x20 && c != '\t' && c != '\n') || c.toNat == 0x7F

/-- Whether a quote stands three times in a row. -/
def hasRun (quote : Char) : List Char → Bool
  | [] => false
  | c :: rest =>
    (c == quote && rest.head? == some quote && rest.tail.head? == some quote) || hasRun quote rest

/-- The first style that fits. -/
def styleOf (text : List Char) : Style :=
  let hasControl := text.any isControl
  let hasBreak := text.contains '\n'
  if !hasControl && !hasBreak && !text.contains '\\' && !text.contains '"' then .basic
  else if !hasControl && !hasBreak && !text.contains '\'' then .literal
  else if !hasControl && !text.contains '\\' && !hasRun '"' text then .basicBlock
  else if !hasControl && !hasRun '\'' text then .literalBlock
  else if hasBreak then .basicBlock
  else .basic

/-- A hexadecimal digit in upper case. -/
def hexDigit (n : Nat) : Char := (Nat.digitChar n).toUpper

/-- How a character is written in the basic styles, apart from line feeds and quotes. -/
def escape (c : Char) : List Char :=
  if c = '\x08' then ['\\', 'b']
  else if c = '\t' then ['\\', 't']
  else if c = '\x0c' then ['\\', 'f']
  else if c = '\r' then ['\\', 'r']
  else if c = '\\' then ['\\', '\\']
  else if c.toNat < 0x20 || c.toNat == 0x7F then
    ['\\', 'u', '0', '0', hexDigit (c.toNat / 16), hexDigit (c.toNat % 16)]
  else [c]

/-- The inside of a basic string. -/
def basicInside (text : List Char) : List Char :=
  text.flatMap fun c =>
    if c = '\n' then ['\\', 'n'] else if c = '"' then ['\\', '"'] else escape c

/-- The inside of a basic block; `run` counts the quotes right before. Every third is escaped. -/
def blockInside (run : Nat) : List Char → List Char
  | [] => []
  | c :: rest =>
    if c = '"' then
      if run = 2 then '\\' :: '"' :: blockInside 0 rest else '"' :: blockInside (run + 1) rest
    else if c = '\n' then '\n' :: blockInside 0 rest
    else escape c ++ blockInside 0 rest

/-- A block begins on a line of its own if it has several. -/
def firstBreak (text : List Char) : List Char :=
  if text.contains '\n' then ['\n'] else []

/-- A text as a string. -/
def quoted (text : String) : String :=
  let characters := text.toList
  String.ofList <|
    match styleOf characters with
    | .basic => '"' :: basicInside characters ++ ['"']
    | .literal => '\'' :: characters ++ ['\'']
    | .basicBlock =>
      ['"', '"', '"'] ++ firstBreak characters ++ blockInside 0 characters ++ ['"', '"', '"']
    | .literalBlock =>
      ['\'', '\'', '\''] ++ firstBreak characters ++ characters ++ ['\'', '\'', '\'']

end SchemaInterfaces.Toml
