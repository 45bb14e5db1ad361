/-!
# Lines of a text

Two readings of a text as lines. `lines` is for text that is laid out again: a line ends at a line
feed, a carriage return right before that line feed belongs to the ending, and an ending at the
very end adds no line. `terminatedLines` is for text that is compared: every line keeps the
characters that end it, so the lines joined give the text back.
-/
namespace SchemaInterfaces.Text

/-- Puts a character in front of the first line, or starts a line with it. -/
def consToFirst (c : Char) : List (List Char) → List (List Char)
  | [] => [[c]]
  | line :: rest => (c :: line) :: rest

/-- The lines without their endings. -/
def splitLines : List Char → List (List Char)
  | [] => []
  | '\r' :: '\n' :: rest => [] :: splitLines rest
  | c :: rest => if c = '\n' then [] :: splitLines rest else consToFirst c (splitLines rest)

/-- The lines with their endings `\n`, `\r\n` or a lone `\r`. -/
def splitTerminated : List Char → List (List Char)
  | [] => []
  | '\r' :: '\n' :: rest => ['\r', '\n'] :: splitTerminated rest
  | c :: rest =>
    if c = '\n' ∨ c = '\r' then [c] :: splitTerminated rest
    else consToFirst c (splitTerminated rest)

/-- The lines of a text without their endings. -/
def lines (text : String) : List String :=
  (splitLines text.toList).map String.ofList

/-- The lines of a text with the characters that end them. -/
def terminatedLines (text : String) : List String :=
  (splitTerminated text.toList).map String.ofList

theorem flatten_consToFirst (c : Char) (split : List (List Char)) :
    (consToFirst c split).flatten = c :: split.flatten := by
  cases split <;> rfl

/-- Nothing of a text is lost when it is split into terminated lines. -/
theorem flatten_splitTerminated (text : List Char) : (splitTerminated text).flatten = text := by
  fun_induction splitTerminated text with
  | case1 => rfl
  | case2 rest ih => simp [ih]
  | case3 c rest _ _ ih => simp [ih]
  | case4 c rest _ _ ih => simp [flatten_consToFirst, ih]

end SchemaInterfaces.Text
