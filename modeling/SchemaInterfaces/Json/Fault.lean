/-!
# Faults of a JSON text

Why a text is not JSON and where that was noticed. A fault is first known by the number of bytes
that are still unread; line and column follow from the whole text. Lines count from one; the column
is the number of bytes consumed on the line.
-/
namespace SchemaInterfaces.Json

/-- Why a text is not JSON. -/
inductive Cause where
  | endInValue
  | endInList
  | endInObject
  | endInText
  | expectedColon
  | expectedListEnd
  | expectedObjectEnd
  | expectedWord
  | expectedValue
  | invalidEscape
  | invalidNumber
  | numberOutOfRange
  | loneSurrogate
  | brokenSurrogatePair
  | controlCharacter
  | keyNotText
  | trailingComma
  | trailingCharacters
  | tooDeep
  deriving DecidableEq, Repr

/-- The wording of a cause. -/
def Cause.message : Cause → String
  | endInValue => "EOF while parsing a value"
  | endInList => "EOF while parsing a list"
  | endInObject => "EOF while parsing an object"
  | endInText => "EOF while parsing a string"
  | expectedColon => "expected \x60:\x60"
  | expectedListEnd => "expected \x60,\x60 or \x60]\x60"
  | expectedObjectEnd => "expected \x60,\x60 or \x60\x7d\x60"
  | expectedWord => "expected ident"
  | expectedValue => "expected value"
  | invalidEscape => "invalid escape"
  | invalidNumber => "invalid number"
  | numberOutOfRange => "number out of range"
  | loneSurrogate => "lone leading surrogate in hex escape"
  | brokenSurrogatePair => "unexpected end of hex escape"
  | controlCharacter => "control character (\\u0000-\\u001F) found while parsing a string"
  | keyNotText => "key must be a string"
  | trailingComma => "trailing comma"
  | trailingCharacters => "trailing characters"
  | tooDeep => "recursion limit exceeded"

/-- Where reading stopped, told by the number of bytes not consumed. -/
structure Stop where
  cause : Cause
  unread : Nat
  deriving DecidableEq, Repr

/-- Length of a text in bytes. -/
def byteLength (text : List Char) : Nat :=
  text.foldl (fun n c => n + c.utf8Size) 0

/-- Stops in front of the text that is left. -/
def Stop.before (cause : Cause) (left : List Char) : Stop :=
  ⟨cause, byteLength left⟩

/-- Stops after the next byte of the text that is left, or at its end. -/
def Stop.afterByte (cause : Cause) (left : List Char) : Stop :=
  ⟨cause, byteLength left - 1⟩

/-- A fault with its place. -/
structure Fault where
  cause : Cause
  line : Nat
  column : Nat
  deriving DecidableEq, Repr

/-- Line and column after the given number of bytes. -/
def place (bytes : Nat) (line column : Nat) : List Char → Nat × Nat
  | [] => (line, column)
  | c :: rest =>
    if bytes < c.utf8Size then (line, column + bytes)
    else if c = '\n' then place (bytes - 1) (line + 1) 0 rest
    else place (bytes - c.utf8Size) line (column + c.utf8Size) rest

/-- The fault of a whole text that reading stopped in. -/
def Stop.toFault (stop : Stop) (text : List Char) : Fault :=
  let (line, column) := place (byteLength text - stop.unread) 1 0 text
  ⟨stop.cause, line, column⟩

def Fault.message (fault : Fault) : String :=
  fault.cause.message ++ " at line " ++ toString fault.line ++ " column " ++ toString fault.column

end SchemaInterfaces.Json
