import SchemaInterfaces.Yaml.BlockText
import SchemaInterfaces.Yaml.Plain
import SchemaInterfaces.Yaml.Tag

/-!
# YAML tokens

A YAML text as tokens. Indentation becomes tokens that open and close blocks. A key is recognised
only at the colon behind it, so its mark is put in front of tokens that have been read already;
such a key stands on one line and is not longer than 1024 characters.
-/
namespace SchemaInterfaces.Yaml

inductive Token where
  | directive (directive : Directive)
  | documentStart
  | documentEnd
  | sequenceStart
  | mappingStart
  | blockEnd
  | flowSequenceStart
  | flowSequenceEnd
  | flowMappingStart
  | flowMappingEnd
  | entry
  | flowEntry
  | key
  | value
  | alias (name : String)
  | anchor (name : String)
  | tag (handle text : String)
  | scalar (text : String) (plain : Bool)

/-- A place where a key may have begun: the number of tokens before it and its position. A key is
required where nothing else could stand. -/
structure KeyPlace where
  number : Nat
  required : Bool
  index : Nat
  line : Nat
  column : Nat

/-- The state of reading tokens. `tokens` holds the tokens in reverse; `keys` has a place for the
block level and for every open flow collection, the innermost first; `indent` is the column of the
open block, below zero at the top. -/
structure Lexer where
  cursor : Cursor
  tokens : List Token
  count : Nat
  keys : List (Option KeyPlace)
  indent : Int
  indents : List Int
  keyAllowed : Bool

namespace Lexer

/-- The longest key in characters. -/
def maxKey : Nat := 1024

def start (text : List Char) : Lexer :=
  ⟨⟨text, 0, 0, 0⟩, [], 0, [none], -1, [], true⟩

/-- Inside a flow collection. -/
def inFlow (lexer : Lexer) : Bool := 1 < lexer.keys.length

def push (lexer : Lexer) (token : Token) : Lexer :=
  { lexer with tokens := token :: lexer.tokens, count := lexer.count + 1 }

/-- Puts a token in front of all but the first `number` tokens. -/
def insertAt (lexer : Lexer) (number : Nat) (token : Token) : Lexer :=
  { lexer with
    tokens := lexer.tokens.insertIdx (lexer.count - number) token
    count := lexer.count + 1 }

/-- Opens a block at a column, if that is further right. -/
def openBlock (lexer : Lexer) (column number : Nat) (token : Token) : Lexer :=
  if lexer.inFlow ∨ (column : Int) ≤ lexer.indent then lexer
  else
    { lexer with indents := lexer.indent :: lexer.indents, indent := column }.insertAt number token

/-- Closes blocks that are further right than a column; the list holds the columns of the blocks
around them. -/
def closeBlocksFrom (column : Int) : List Int → Lexer → Lexer
  | [], lexer => lexer
  | outer :: rest, lexer =>
    if column < lexer.indent then
      closeBlocksFrom column rest
        { lexer.push .blockEnd with indent := outer, indents := rest }
    else lexer

/-- Closes the blocks that are further right than a column. -/
def closeBlocks (lexer : Lexer) (column : Int) : Lexer :=
  if lexer.inFlow then lexer else closeBlocksFrom column lexer.indents lexer

/-- Forgets a key place that can no longer be a key. It is an error if the key was required. -/
def dropStale? (cursor : Cursor) : Option KeyPlace → Option (Option KeyPlace)
  | none => some none
  | some place =>
    if place.line < cursor.line ∨ place.index + maxKey < cursor.index then
      if place.required then none else some none
    else some (some place)

def dropStaleKeys? (lexer : Lexer) : Option Lexer :=
  (lexer.keys.mapM (dropStale? lexer.cursor)).map fun keys => { lexer with keys }

/-- Gives up the key place of the current level. It is an error if the key was required. -/
def dropKey? (lexer : Lexer) : Option Lexer :=
  match lexer.keys with
  | some place :: rest => if place.required then none else some { lexer with keys := none :: rest }
  | _ => some lexer

/-- Notes that a key may begin here. -/
def markKey? (lexer : Lexer) : Option Lexer :=
  if lexer.keyAllowed then do
    let lexer ← lexer.dropKey?
    let cursor := lexer.cursor
    let place : KeyPlace :=
      ⟨lexer.count, !lexer.inFlow && lexer.indent == cursor.column, cursor.index, cursor.line,
        cursor.column⟩
    return { lexer with keys := some place :: lexer.keys.drop 1 }
  else some lexer

/-- Passes blanks, comments and line breaks. A tab may not stand where a key may begin in a block.
A byte order mark may begin a line. Every round ends a line. -/
def skipToToken : Nat → Lexer → Lexer
  | 0, lexer => lexer
  | rounds + 1, lexer =>
    let cursor := lexer.cursor
    let cursor :=
      if cursor.column == 0 && cursor.rest.head? == some '\uFEFF' then cursor.advance 1 else cursor
    let tabs := lexer.inFlow || !lexer.keyAllowed
    let cursor := cursor.skipWhile fun c => c == ' ' || (tabs && c == '\t')
    let cursor :=
      if cursor.rest.head? == some '#' then cursor.skipWhile (!isBreak ·) else cursor
    if cursor.rest.head?.any isBreak then
      skipToToken rounds { lexer with
        cursor := cursor.readBreak.2
        keyAllowed := lexer.keyAllowed || !lexer.inFlow }
    else { lexer with cursor }

/-- Reads a mark of the given length as a token. -/
def takeMark (lexer : Lexer) (length : Nat) (token : Token) : Lexer :=
  { lexer with cursor := lexer.cursor.advance length }.push token

/-- Takes over a scalar or a name that was read. -/
def takeRead (lexer : Lexer) (token : Token) (cursor : Cursor) : Lexer :=
  { lexer with cursor }.push token

/-- Ends all blocks in front of a directive or a document mark. -/
def endDocument? (lexer : Lexer) : Option Lexer :=
  (lexer.closeBlocks (-1)).dropKey?.map fun lexer => { lexer with keyAllowed := false }

def readDirective? (lexer : Lexer) : Option Lexer := do
  let lexer ← lexer.endDocument?
  let (directive, cursor) ← directive? lexer.cursor
  return lexer.takeRead (.directive directive) cursor

def readDocumentMark? (lexer : Lexer) (token : Token) : Option Lexer :=
  lexer.endDocument?.map (·.takeMark 3 token)

def openFlow? (lexer : Lexer) (token : Token) : Option Lexer := do
  let lexer ← lexer.markKey?
  return { lexer with keys := none :: lexer.keys, keyAllowed := true }.takeMark 1 token

def closeFlow? (lexer : Lexer) (token : Token) : Option Lexer := do
  let lexer ← lexer.dropKey?
  let keys := if lexer.inFlow then lexer.keys.drop 1 else lexer.keys
  return { lexer with keys, keyAllowed := false }.takeMark 1 token

def readFlowEntry? (lexer : Lexer) : Option Lexer := do
  let lexer ← lexer.dropKey?
  return { lexer with keyAllowed := true }.takeMark 1 .flowEntry

/-- The mark of a sequence entry, which may open a block. -/
def readEntry? (lexer : Lexer) : Option Lexer := do
  if !lexer.inFlow && !lexer.keyAllowed then none
  let lexer ← (lexer.openBlock lexer.cursor.column lexer.count .sequenceStart).dropKey?
  return { lexer with keyAllowed := true }.takeMark 1 .entry

/-- The mark of an explicit key, which may open a block. -/
def readKey? (lexer : Lexer) : Option Lexer := do
  if !lexer.inFlow && !lexer.keyAllowed then none
  let lexer ← (lexer.openBlock lexer.cursor.column lexer.count .mappingStart).dropKey?
  return { lexer with keyAllowed := !lexer.inFlow }.takeMark 1 .key

/-- The mark of a value. What was noted as a possible key becomes one. -/
def readValue? (lexer : Lexer) : Option Lexer :=
  match lexer.keys with
  | some place :: rest =>
    let lexer := { lexer with keys := none :: rest, keyAllowed := false }.insertAt place.number .key
    some ((lexer.openBlock place.column place.number .mappingStart).takeMark 1 .value)
  | _ =>
    if !lexer.inFlow && !lexer.keyAllowed then none
    else
      let lexer := lexer.openBlock lexer.cursor.column lexer.count .mappingStart
      some ({ lexer with keyAllowed := !lexer.inFlow }.takeMark 1 .value)

/-- A token that a key may begin with. -/
def readInKey? (lexer : Lexer) (read : Lexer → Option (Token × Cursor)) : Option Lexer := do
  let lexer ← lexer.markKey?
  let (token, cursor) ← read lexer
  return { lexer with keyAllowed := false }.takeRead token cursor

def readBlockScalar? (lexer : Lexer) (folded : Bool) : Option Lexer := do
  let lexer ← lexer.dropKey?
  let (text, cursor) ← blockScalar? folded lexer.indent lexer.cursor
  return { lexer with keyAllowed := true }.takeRead (.scalar text false) cursor

/-- A plain scalar; behind a line break a key may begin again. -/
def readPlainScalar? (lexer : Lexer) : Option Lexer := do
  let lexer ← lexer.markKey?
  let scalar ← plainScalar? lexer.inFlow (lexer.indent + 1).toNat lexer.cursor
  return { lexer with keyAllowed := scalar.broken }.takeRead (.scalar scalar.text true) scalar.cursor

/-- Characters that no plain scalar begins with. -/
def isIndicator (c : Char) : Bool :=
  c == '-' || c == '?' || c == ':' || c == ',' || c == '[' || c == ']' || c == '\x7b'
    || c == '\x7d' || c == '#' || c == '&' || c == '*' || c == '!' || c == '|' || c == '>'
    || c == '\'' || c == '"' || c == '%' || c == '@' || c == '\x60'

/-- A plain scalar may begin with a dash, question mark or colon that does not stand alone. -/
def beginsPlain (flow : Bool) (c : Char) (rest : List Char) : Bool :=
  (!isIndicator c && !isBlank c && !isBreak c)
    || (c == '-' && !rest.head?.any isBlank)
    || (!flow && (c == '?' || c == ':') && !endsWord rest)

/-- Reads the token that begins with the given character. -/
def readToken? (lexer : Lexer) (c : Char) (rest : List Char) : Option Lexer :=
  if lexer.cursor.column == 0 && c == '%' then lexer.readDirective?
  else if lexer.cursor.atDocumentMark then
    lexer.readDocumentMark? (if c == '-' then .documentStart else .documentEnd)
  else if c == '[' then lexer.openFlow? .flowSequenceStart
  else if c == '\x7b' then lexer.openFlow? .flowMappingStart
  else if c == ']' then lexer.closeFlow? .flowSequenceEnd
  else if c == '\x7d' then lexer.closeFlow? .flowMappingEnd
  else if c == ',' then lexer.readFlowEntry?
  else if c == '-' && endsWord rest then lexer.readEntry?
  else if c == '?' && (lexer.inFlow || endsWord rest) then lexer.readKey?
  else if c == ':' && (lexer.inFlow || endsWord rest) then lexer.readValue?
  else if c == '*' then
    lexer.readInKey? fun lexer => (anchorName? lexer.cursor).map fun (name, cursor) =>
      (.alias name, cursor)
  else if c == '&' then
    lexer.readInKey? fun lexer => (anchorName? lexer.cursor).map fun (name, cursor) =>
      (.anchor name, cursor)
  else if c == '!' then
    lexer.readInKey? fun lexer => (tag? lexer.inFlow lexer.cursor).map fun (tag, cursor) =>
      (.tag tag.1 tag.2, cursor)
  else if c == '|' && !lexer.inFlow then lexer.readBlockScalar? false
  else if c == '>' && !lexer.inFlow then lexer.readBlockScalar? true
  else if c == '\'' || c == '"' then
    lexer.readInKey? fun lexer => (quotedScalar? c lexer.cursor).map fun (text, cursor) =>
      (.scalar text false, cursor)
  else if beginsPlain lexer.inFlow c rest then lexer.readPlainScalar?
  else none

/-- Reads tokens to the end of the text. Every round reads a character. -/
def run? : Nat → Lexer → Option Lexer
  | 0, _ => none
  | rounds + 1, lexer => do
    let lexer ← (skipToToken (lexer.cursor.rest.length + 1) lexer).dropStaleKeys?
    let lexer := lexer.closeBlocks lexer.cursor.column
    match lexer.cursor.rest with
    | [] => (lexer.closeBlocks (-1)).dropKey?
    | c :: rest => run? rounds (← lexer.readToken? c rest)

end Lexer

/-- The tokens of a text. A byte order mark in front of it does not count. -/
def tokens? (text : String) : Option (List Token) :=
  let characters :=
    match text.toList with
    | '\uFEFF' :: rest => rest
    | characters => characters
  if characters.all isAllowed then
    (Lexer.run? (characters.length + 1) (.start characters)).map (·.tokens.reverse)
  else none

end SchemaInterfaces.Yaml
