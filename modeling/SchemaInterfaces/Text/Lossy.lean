/-!
# Texts of arbitrary bytes

Decoding of bytes that need not be UTF-8. Bytes that no character can begin with or go on with are
replaced: each longest beginning of a character that breaks off becomes one replacement character.
-/
namespace SchemaInterfaces.Text

/-- The character that stands for undecodable bytes. -/
def replacement : Char := '\uFFFD'

/-- How many bytes follow a first byte, and the bounds of the first of them. -/
def following? (lead : Nat) : Option (Nat × Nat × Nat) :=
  if 0xC2 ≤ lead ∧ lead ≤ 0xDF then some (1, 0x80, 0xBF)
  else if lead = 0xE0 then some (2, 0xA0, 0xBF)
  else if lead = 0xED then some (2, 0x80, 0x9F)
  else if 0xE1 ≤ lead ∧ lead ≤ 0xEF then some (2, 0x80, 0xBF)
  else if lead = 0xF0 then some (3, 0x90, 0xBF)
  else if 0xF1 ≤ lead ∧ lead ≤ 0xF3 then some (3, 0x80, 0xBF)
  else if lead = 0xF4 then some (3, 0x80, 0x8F)
  else none

/-- The bytes that go on with a character, at most `count`; the first lies between the bounds. -/
def continuation : Nat → Nat → Nat → List Nat → List Nat
  | 0, _, _, _ => []
  | _, _, _, [] => []
  | count + 1, low, high, byte :: rest =>
    if low ≤ byte ∧ byte ≤ high then byte :: continuation count 0x80 0xBF rest else []

/-- The character that begins with a byte, and how many further bytes it takes. -/
def decodeOne (lead : Nat) (rest : List Nat) : Char × Nat :=
  if lead < 0x80 then (Char.ofNat lead, 0)
  else
    match following? lead with
    | none => (replacement, 0)
    | some (count, low, high) =>
      let bytes := continuation count low high rest
      if bytes.length = count then
        (Char.ofNat (bytes.foldl (fun code byte => code * 0x40 + byte % 0x40)
          (lead % Nat.pow 2 (6 - count))), count)
      else (replacement, bytes.length)

/-- The characters of bytes. -/
def decodeLossy : List Nat → List Char
  | [] => []
  | lead :: rest =>
    let (character, count) := decodeOne lead rest
    character :: decodeLossy (rest.drop count)
termination_by bytes => bytes.length
decreasing_by simp only [List.length_drop, List.length_cons]; omega

/-- The text of bytes. -/
def ofBytesLossy (bytes : ByteArray) : String :=
  String.ofList (decodeLossy (bytes.toList.map UInt8.toNat))

/-- A text without a byte order mark in front. -/
def withoutMark (text : String) : String :=
  match text.toList with
  | '\uFEFF' :: rest => String.ofList rest
  | _ => text

end SchemaInterfaces.Text
