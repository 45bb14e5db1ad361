import SchemaInterfaces.Json.Number

/-!
# Reading JSON

Strict JSON, read from left to right: the first fault decides. At most 127 lists and objects may be
nested. A repeated key keeps its first place and its last value.
-/
namespace SchemaInterfaces.Json

/-- The blank characters of JSON. -/
def isSpace (c : Char) : Bool :=
  c == ' ' || c == '\n' || c == '\t' || c == '\r'

def skipSpace (text : List Char) : List Char := text.dropWhile isSpace

/-- Reads the rest of a word such as `null`. -/
def word : List Char → List Char → Except Stop (List Char)
  | [], text => .ok text
  | _ :: _, [] => .error (.before .endInValue [])
  | expected :: more, c :: rest =>
    if c = expected then word more rest else .error (.afterByte .expectedWord (c :: rest))

/-- The value of a hexadecimal digit in either case. -/
def hexValue? (c : Char) : Option Nat :=
  if c.isDigit then some (c.toNat - '0'.toNat)
  else if 'a' ≤ c ∧ c ≤ 'f' then some (c.toNat - 'a'.toNat + 10)
  else if 'A' ≤ c ∧ c ≤ 'F' then some (c.toNat - 'A'.toNat + 10)
  else none

/-- The value of four hexadecimal digits. -/
def hexUnit? (a b c d : Char) : Option Nat := do
  let a ← hexValue? a
  let b ← hexValue? b
  let c ← hexValue? c
  let d ← hexValue? d
  return ((a * 16 + b) * 16 + c) * 16 + d

/-- Stops at an escape whose four digits are not there. -/
def badUnit (text : List Char) : Stop :=
  if byteLength text < 4 then .before .endInText [] else ⟨.invalidEscape, byteLength text - 4⟩

/-- The meaning of an escape of one letter. -/
def simpleEscape? (c : Char) : Option Char :=
  if c = '"' ∨ c = '\\' ∨ c = '/' then some c
  else if c = 'b' then some '\x08'
  else if c = 'f' then some '\x0c'
  else if c = 'n' then some '\n'
  else if c = 'r' then some '\r'
  else if c = 't' then some '\t'
  else none

def isLeadingSurrogate (unit : Nat) : Bool := 0xD800 ≤ unit && unit ≤ 0xDBFF

def isTrailingSurrogate (unit : Nat) : Bool := 0xDC00 ≤ unit && unit ≤ 0xDFFF

/-- The character that two surrogates encode. -/
def joinSurrogates (leading trailing : Nat) : Char :=
  Char.ofNat ((leading - 0xD800) * 0x400 + (trailing - 0xDC00) + 0x10000)

/-- Puts a character in front of a text that was read. -/
def consText (c : Char) (step : Except Stop (List Char × List Char)) :
    Except Stop (List Char × List Char) :=
  step.map fun (text, rest) => (c :: text, rest)

/-- Reads a text behind its opening quote up to and with the closing one. -/
def readText : List Char → Except Stop (List Char × List Char)
  | [] => .error (.before .endInText [])
  | '"' :: rest => .ok ([], rest)
  | ['\\'] => .error (.before .endInText [])
  | '\\' :: 'u' :: a :: b :: c :: d :: rest =>
    match hexUnit? a b c d with
    | none => .error (badUnit (a :: b :: c :: d :: rest))
    | some unit =>
      if isTrailingSurrogate unit then .error (.before .loneSurrogate rest)
      else if isLeadingSurrogate unit then
        match rest with
        | '\\' :: 'u' :: e :: f :: g :: h :: tail =>
          match hexUnit? e f g h with
          | none => .error (badUnit (e :: f :: g :: h :: tail))
          | some second =>
            if isTrailingSurrogate second then consText (joinSurrogates unit second) (readText tail)
            else .error (.before .loneSurrogate tail)
        | '\\' :: 'u' :: tail => .error (badUnit tail)
        | ['\\'] => .error (.before .endInText [])
        | '\\' :: tail => .error (.afterByte .brokenSurrogatePair tail)
        | [] => .error (.before .endInText [])
        | tail => .error (.afterByte .brokenSurrogatePair tail)
      else consText (Char.ofNat unit) (readText rest)
  | '\\' :: 'u' :: rest => .error (badUnit rest)
  | '\\' :: c :: rest =>
    match simpleEscape? c with
    | some meaning => consText meaning (readText rest)
    | none => .error (.afterByte .invalidEscape (c :: rest))
  | c :: rest =>
    if c.toNat < 0x20 then .error (.afterByte .controlCharacter (c :: rest))
    else consText c (readText rest)

/-- Lists and objects that may be nested. -/
def maxDepth : Nat := 127

/-- Reads the colon between key and value. -/
def colon (text : List Char) : Except Stop (List Char) :=
  match skipSpace text with
  | [] => .error (.before .endInObject [])
  | ':' :: rest => .ok rest
  | rest => .error (.afterByte .expectedColon rest)

mutual

/-- Reads a value; `depth` more levels may be opened. Every step of `budget` reads at least one
character of the text, so a budget of twice its length is never used up. -/
def readValue (budget depth : Nat) (text : List Char) : Except Stop (Document × List Char) :=
  match budget with
  | 0 => .error (.before .tooDeep text)
  | budget + 1 =>
    match skipSpace text with
    | [] => .error (.before .endInValue [])
    | 'n' :: rest => (word "ull".toList rest).map fun rest => (.null, rest)
    | 't' :: rest => (word "rue".toList rest).map fun rest => (.boolean true, rest)
    | 'f' :: rest => (word "alse".toList rest).map fun rest => (.boolean false, rest)
    | '-' :: rest => (readNumber true rest).map fun (number, rest) => (.number number, rest)
    | '"' :: rest => (readText rest).map fun (value, rest) => (.text (String.ofList value), rest)
    | '[' :: rest =>
      match depth with
      | 0 => .error (.afterByte .tooDeep ('[' :: rest))
      | depth + 1 =>
        match skipSpace rest with
        | [] => .error (.before .endInList [])
        | ']' :: rest => .ok (.sequence [], rest)
        | rest => (readItems budget depth rest).map fun (items, rest) => (.sequence items, rest)
    | '\x7b' :: rest =>
      match depth with
      | 0 => .error (.afterByte .tooDeep ('\x7b' :: rest))
      | depth + 1 =>
        match skipSpace rest with
        | [] => .error (.before .endInObject [])
        | '\x7d' :: rest => .ok (.mapping [], rest)
        | rest =>
          (readEntries budget depth rest).map fun (pairs, rest) => (.mapping (entriesOf pairs), rest)
    | c :: rest =>
      if c.isDigit then (readNumber false (c :: rest)).map fun (number, rest) => (.number number, rest)
      else .error (.afterByte .expectedValue (c :: rest))

/-- Reads the items of a list that is not empty, up to and with the closing bracket. -/
def readItems (budget depth : Nat) (text : List Char) : Except Stop (List Document × List Char) :=
  match budget with
  | 0 => .error (.before .tooDeep text)
  | budget + 1 => do
    let (item, rest) ← readValue budget depth text
    match skipSpace rest with
    | [] => .error (.before .endInList [])
    | ']' :: rest => .ok ([item], rest)
    | ',' :: rest =>
      match skipSpace rest with
      | [] => .error (.before .endInValue [])
      | ']' :: rest => .error (.afterByte .trailingComma (']' :: rest))
      | rest => (readItems budget depth rest).map fun (items, rest) => (item :: items, rest)
    | rest => .error (.afterByte .expectedListEnd rest)

/-- Reads the entries of an object that is not empty, up to and with the closing brace. -/
def readEntries (budget depth : Nat) (text : List Char) :
    Except Stop (List (String × Document) × List Char) :=
  match budget with
  | 0 => .error (.before .tooDeep text)
  | budget + 1 =>
    match text with
    | '"' :: rest => do
      let (key, rest) ← readText rest
      let rest ← colon rest
      let (value, rest) ← readValue budget depth rest
      let entry := (String.ofList key, value)
      match skipSpace rest with
      | [] => .error (.before .endInObject [])
      | '\x7d' :: rest => .ok ([entry], rest)
      | ',' :: rest =>
        match skipSpace rest with
        | [] => .error (.before .endInValue [])
        | '\x7d' :: rest => .error (.afterByte .trailingComma ('\x7d' :: rest))
        | rest => (readEntries budget depth rest).map fun (entries, rest) => (entry :: entries, rest)
      | rest => .error (.afterByte .expectedObjectEnd rest)
    | rest => .error (.afterByte .keyNotText rest)

end

/-- Reads a whole text. -/
def readAll (text : List Char) : Except Stop Document := do
  let (document, rest) ← readValue (2 * text.length + 2) maxDepth text
  match skipSpace rest with
  | [] => .ok document
  | rest => .error (.afterByte .trailingCharacters rest)

/-- The document of a JSON text. -/
def read (text : String) : Except Fault Document :=
  (readAll text.toList).mapError (·.toFault text.toList)

end SchemaInterfaces.Json
