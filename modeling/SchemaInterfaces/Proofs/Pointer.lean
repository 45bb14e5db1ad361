import SchemaInterfaces.Generation
import SchemaInterfaces.Proofs.Number.Decimal

/-!
# Pointers select what they encode

An access path goes from a document through keys and positions to a value inside. Written as a
pointer, its tokens are read back one by one: no escaped key holds a slash, so the slashes show
where a token ends, and restoring slashes before tildes undoes the escapes of every key
(`decodeToken_escaped`). The pointer therefore selects the value that the path leads to
(`select?_written`), and generating with it is generating from that value.
-/
namespace SchemaInterfaces

/-- One step from a value to a value inside it. -/
inductive AccessStep where
  | key (name : String)
  | index (position : Nat)
  deriving DecidableEq, Repr

namespace AccessStep

/-- The value that a step leads to: keys lead into mappings, positions into sequences. -/
def value? (document : Document) : AccessStep → Option Document
  | key name => document.get? name
  | index position => document.sequence?.bind fun items => items[position]?

end AccessStep

/-- The value that a path of steps leads to. -/
def Document.valueAt? (document : Document) : List AccessStep → Option Document
  | [] => some document
  | step :: rest => (step.value? document).bind fun inner => inner.valueAt? rest

namespace Pointer

/-- How a character of a key is written. -/
def escape (c : Char) : List Char :=
  if c = '~' then ['~', '0'] else if c = '/' then ['~', '1'] else [c]

/-- The token of a step: an escaped key, or a position in decimal. -/
def token : AccessStep → List Char
  | .key name => name.toList.flatMap escape
  | .index position => Nat.toDigits 10 position

/-- An access path as a pointer. -/
def written (path : List AccessStep) : String :=
  String.ofList (path.flatMap fun step => '/' :: token step)

/-! ### Tokens -/

theorem unescape_cons_of_ne {c : Char} (digit replacement : Char) (h : c ≠ '~') (rest : List Char) :
    unescape digit replacement (c :: rest) = c :: unescape digit replacement rest := by
  cases rest with
  | nil => rfl
  | cons d rest => rw [unescape, if_neg fun both => h both.1]

theorem unescape_escape (digit replacement : Char) (rest : List Char) :
    unescape digit replacement ('~' :: digit :: rest) =
      replacement :: unescape digit replacement rest := by
  rw [unescape, if_pos ⟨rfl, rfl⟩]

theorem unescape_other {digit other : Char} (replacement : Char) (h : other ≠ digit)
    (rest : List Char) :
    unescape digit replacement ('~' :: other :: rest) =
      '~' :: unescape digit replacement (other :: rest) := by
  rw [unescape, if_neg fun both => h both.2]

/-- With its slashes restored, a key has only its tildes escaped. -/
theorem unescape_slash_escaped (key : List Char) :
    unescape '1' '/' (key.flatMap escape) =
      key.flatMap fun c => if c = '~' then ['~', '0'] else [c] := by
  induction key with
  | nil => rfl
  | cons c rest ih =>
    rw [List.flatMap_cons, List.flatMap_cons]
    by_cases tilde : c = '~'
    · rw [escape, if_pos tilde, if_pos tilde, List.cons_append, List.cons_append,
        unescape_other '/' (by decide), unescape_cons_of_ne _ _ (by decide), List.nil_append, ih]
      rfl
    · rw [escape, if_neg tilde, if_neg tilde]
      by_cases slash : c = '/'
      · rw [if_pos slash, List.cons_append, List.cons_append, unescape_escape, List.nil_append, ih,
          slash]
        rfl
      · rw [if_neg slash, List.singleton_append, unescape_cons_of_ne _ _ tilde, ih]
        rfl

theorem unescape_tilde_escaped (key : List Char) :
    unescape '0' '~' (key.flatMap fun c => if c = '~' then ['~', '0'] else [c]) = key := by
  induction key with
  | nil => rfl
  | cons c rest ih =>
    rw [List.flatMap_cons]
    by_cases tilde : c = '~'
    · rw [if_pos tilde, List.cons_append, List.singleton_append, unescape_escape, ih, tilde]
    · rw [if_neg tilde, List.singleton_append, unescape_cons_of_ne _ _ tilde, ih]

/-- An escaped key is read as the key. -/
theorem decodeToken_escaped (key : List Char) : decodeToken (key.flatMap escape) = key := by
  rw [decodeToken, unescape_slash_escaped, unescape_tilde_escaped]

theorem unescape_of_not_mem (digit replacement : Char) {text : List Char} (free : '~' ∉ text) :
    unescape digit replacement text = text := by
  induction text with
  | nil => rfl
  | cons c rest ih =>
    rw [List.mem_cons, not_or] at free
    rw [unescape_cons_of_ne _ _ (Ne.symm free.1), ih free.2]

theorem decodeToken_digits (position : Nat) :
    decodeToken (Nat.toDigits 10 position) = Nat.toDigits 10 position := by
  have free : '~' ∉ Nat.toDigits 10 position := fun member =>
    absurd (Decimal.isDigit_of_mem_toDigits member) (by decide)
  rw [decodeToken, unescape_of_not_mem _ _ free, unescape_of_not_mem _ _ free]

theorem position?_digits (position : Nat) :
    position? (Nat.toDigits 10 position) = some position := by
  have nonempty : (Nat.toDigits 10 position).isEmpty = false :=
    List.isEmpty_eq_false_iff.mpr Nat.toDigits_ne_nil
  have digits : (Nat.toDigits 10 position).all Char.isDigit = true :=
    List.all_eq_true.mpr fun _ member => Decimal.isDigit_of_mem_toDigits member
  have noZero : ¬ ((Nat.toDigits 10 position).head? = some '0' ∧
      (Nat.toDigits 10 position).length ≠ 1) := by
    rintro ⟨zero, more⟩
    rw [Decimal.toDigits_of_head?_eq_zero zero] at more
    exact more rfl
  rw [position?, if_neg (by simp [nonempty, digits, noZero]), Decimal.ofDigits_toDigits]

/-! ### Paths -/

theorem slash_not_mem_token (step : AccessStep) : '/' ∉ token step := by
  cases step with
  | key name =>
    simp only [token, List.mem_flatMap, not_exists, not_and]
    intro c _ member
    rw [escape] at member
    split at member
    next => simp at member
    next =>
      split at member
      next => simp at member
      next slash => exact slash (List.mem_singleton.mp member).symm
  | index position =>
    exact fun member => absurd (Decimal.isDigit_of_mem_toDigits member) (by decide)

theorem splitSlash_eq_splitOn (text : List Char) : splitSlash text = text.splitOn '/' := by
  induction text with
  | nil => rfl
  | cons c rest ih =>
    rw [splitSlash, List.splitOn_cons_eq_if_modifyHead, ih]
    by_cases slash : c = '/'
    · simp [slash]
    · cases parts : rest.splitOn '/' with
      | nil => exact absurd parts (List.splitOn_ne_nil _ _)
      | cons part parts => simp [slash]

/-- The tokens of a path come back from between its slashes. -/
theorem splitSlash_tokens (step : AccessStep) (rest : List AccessStep) :
    splitSlash (token step ++ rest.flatMap fun step => '/' :: token step) =
      (step :: rest).map token := by
  rw [splitSlash_eq_splitOn]
  induction rest generalizing step with
  | nil =>
    rw [List.flatMap_nil, List.append_nil, List.splitOn_eq_singleton (slash_not_mem_token step)]
    rfl
  | cons next rest ih =>
    rw [List.flatMap_cons, List.cons_append,
      List.splitOn_append_cons_self_of_not_mem (slash_not_mem_token step), ih]
    rfl

theorem tokens?_written (path : List AccessStep) :
    tokens? (written path) = some (path.map fun step => decodeToken (token step)) := by
  rw [tokens?, written, String.toList_ofList]
  cases path with
  | nil => rfl
  | cons step rest =>
    rw [List.flatMap_cons, List.cons_append]
    simp only [splitSlash_tokens, List.map_map]
    rfl

/-- The token of a step enters what the step leads to. -/
theorem enter?_token {document inner : Document} {step : AccessStep}
    (leads : step.value? document = some inner) :
    enter? document (decodeToken (token step)) = some inner := by
  cases step with
  | key name =>
    cases document with
    | mapping entries =>
      rw [token, decodeToken_escaped, enter?, String.ofList_toList]
      exact leads
    | _ => cases leads
  | index position =>
    cases document with
    | sequence items =>
      rw [token, decodeToken_digits, enter?, position?_digits]
      exact leads
    | _ => cases leads

/-- A written path selects what the path leads to. -/
theorem select?_written {document value : Document} {path : List AccessStep}
    (leads : document.valueAt? path = some value) :
    select? document (written path) = some value := by
  rw [select?, tokens?_written, Option.bind_some]
  induction path generalizing document with
  | nil => exact leads
  | cons step rest ih =>
    obtain ⟨inner, entered, further⟩ := Option.bind_eq_some_iff.mp leads
    rw [List.map_cons, follow?, enter?_token entered, Option.bind_some, ih further]

end Pointer

namespace Generation

/-- Generating with the pointer of an access path is generating from the value that the path leads
to: the same code and counts, or the same refusal. The pointer of the empty path is no pointer. -/
theorem result?_written (generation : Generation) (document value : Document)
    (path : List AccessStep) (leads : document.valueAt? path = some value) :
    { generation with pointer := some (Pointer.written path) }.result? document =
        { generation with pointer := none }.result? value ∧
      { generation with pointer := some (Pointer.written path) }.missingRootMessage =
        { generation with pointer := none }.missingRootMessage ∧
      { generation with pointer := some "" }.result? document =
        { generation with pointer := none }.result? document := by
  have whole : Pointer.select? document "" = some document := rfl
  refine ⟨?_, rfl, ?_⟩
  · simp only [result?, entries?, Pointer.select?_written leads]
    rfl
  · simp only [result?, entries?, whole]
    rfl

/-- A schema below keys that look like escapes, positions and nothing at all. -/
def nestedDocument : Document :=
  .mapping [("~1", .null), ("/", .sequence [.null, .mapping [("0", .null), ("~01/", .mapping [
    ("", .mapping [("context", .mapping [("type", .text "object")])])])]])]

def nestedPath : List AccessStep := [.key "/", .index 1, .key "~01/", .key ""]

/-- The pointer of a path through such keys finds the schema, and a wrong root key is refused as it
is without a pointer. -/
theorem result?_written_nested :
    Pointer.written nestedPath = "/~1/1/~001~1/" ∧
      ∃ value, nestedDocument.valueAt? nestedPath = some value ∧
        ({ pointer := some (Pointer.written nestedPath) } : Generation).result? nestedDocument =
          some ⟨"context: object;\n", 0, 1⟩ ∧
        ({ pointer := some (Pointer.written nestedPath), rootKey := "meta" } : Generation).result?
          nestedDocument = none := by
  refine ⟨by decide, .mapping [("context", .mapping [("type", .text "object")])], rfl, ?_, ?_⟩
  · exact (result?_written {} nestedDocument _ nestedPath rfl).1.trans (by decide)
  · exact (result?_written { rootKey := "meta" } nestedDocument _ nestedPath rfl).1.trans
      (by decide)

end Generation

end SchemaInterfaces
