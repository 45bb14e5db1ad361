/-!
# Blank characters

The characters with the Unicode property White_Space, and trimming by that property.
-/
namespace SchemaInterfaces.Text

/-- The Unicode property White_Space. -/
def isBlank (c : Char) : Bool :=
  let n := c.toNat
  (0x9 ≤ n && n ≤ 0xD) || n == 0x20 || n == 0x85 || n == 0xA0 || n == 0x1680
    || (0x2000 ≤ n && n ≤ 0x200A) || n == 0x2028 || n == 0x2029 || n == 0x202F || n == 0x205F
    || n == 0x3000

/-- Drops the blank characters at the end. -/
def dropBlankEnd (text : List Char) : List Char :=
  (text.reverse.dropWhile isBlank).reverse

/-- Drops the blank characters at both ends. -/
def dropBlankEnds (text : List Char) : List Char :=
  dropBlankEnd (text.dropWhile isBlank)

/-- A text without blank characters at its end. -/
def trimEnd (text : String) : String :=
  String.ofList (dropBlankEnd text.toList)

/-- A text without blank characters at its ends. -/
def trim (text : String) : String :=
  String.ofList (dropBlankEnds text.toList)

end SchemaInterfaces.Text
