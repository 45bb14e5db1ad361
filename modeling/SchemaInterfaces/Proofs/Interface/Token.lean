import SchemaInterfaces.Interface.Text
import SchemaInterfaces.Proofs.Json.Quoted

/-!
# The tokens of generated code

Generated text is read the way a compiler reads it: blank characters and comments are skipped, a
text in double quotes is one token, a run of identifier characters is one word, and any other
character is a mark of its own. The scanner is a state machine that takes one character after the
other; what it makes of a word, a mark and a quoted text is said once here, and proofs about longer
texts do not follow its states.
-/
namespace SchemaInterfaces

/-- A token. A literal keeps what stands between its quotes as it is written. -/
inductive Token where
  | word (text : List Char)
  | literal (written : List Char)
  | mark (c : Char)
  /-- The text ends inside a literal or a comment. -/
  | unfinished
  deriving DecidableEq, Repr

/-- Where the scanner stands, with the characters that it has read of an unfinished token. -/
inductive Scanner where
  | code
  | word (text : List Char)
  | literal (written : List Char)
  | escaped (written : List Char)
  | slash
  | comment
  | commentStar
  deriving DecidableEq, Repr

namespace Scanner

/-- The first character of whatever comes next. -/
def start (c : Char) : Scanner × List Token :=
  if c = '"' then (literal [], [])
  else if c = '/' then (slash, [])
  else if isIdentifierPart c then (word [c], [])
  else if Text.isBlank c then (code, [])
  else (code, [.mark c])

/-- The next state and the tokens that are complete with this character. -/
def step : Scanner → Char → Scanner × List Token
  | code, c => start c
  | word text, c =>
    if isIdentifierPart c then (word (text ++ [c]), [])
    else ((start c).1, .word text :: (start c).2)
  | literal written, c =>
    if c = '"' then (code, [.literal written])
    else if c = '\\' then (escaped written, [])
    else (literal (written ++ [c]), [])
  | escaped written, c => (literal (written ++ ['\\', c]), [])
  | slash, c => if c = '*' then (comment, []) else ((start c).1, .mark '/' :: (start c).2)
  | comment, c => (if c = '*' then commentStar else comment, [])
  | commentStar, c =>
    (if c = '/' then code else if c = '*' then commentStar else comment, [])

/-- What is left at the end of the text. -/
def finish : Scanner → List Token
  | code => []
  | word text => [.word text]
  | slash => [.mark '/']
  | literal _ | escaped _ | comment | commentStar => [.unfinished]

/-- The tokens of a text from a state on. -/
def run (scanner : Scanner) : List Char → List Token
  | [] => scanner.finish
  | c :: rest => (scanner.step c).2 ++ (scanner.step c).1.run rest

end Scanner

/-- The tokens of a text. -/
def tokens (text : List Char) : List Token := Scanner.code.run text

/-- The token of a string literal. -/
def literalToken (value : String) : Token := .literal (value.toList.flatMap Json.escape)

/-- A word of identifier characters. -/
def IsWord (name : String) : Prop :=
  name.toList ≠ [] ∧ ∀ c ∈ name.toList, isIdentifierPart c = true

/-! ### Words, marks and literals -/

theorem isWord_of_isIdentifier {name : String} (h : isIdentifier name.toList = true) :
    IsWord name := by
  unfold IsWord
  cases hn : name.toList with
  | nil => simp [hn, isIdentifier] at h
  | cons c more =>
    rw [hn, isIdentifier, Bool.and_eq_true, List.all_eq_true] at h
    refine ⟨by simp, fun d member => ?_⟩
    rcases List.mem_cons.mp member with rfl | inside
    · simp [isIdentifierPart, h.1]
    · exact h.2 d inside

/-- A text in front of which a word ends. -/
def EndsWord (text : List Char) : Prop :=
  ∀ c ∈ text.head?, isIdentifierPart c = false

theorem endsWord_cons (c : Char) (rest : List Char) :
    EndsWord (c :: rest) ↔ isIdentifierPart c = false := by
  simp [EndsWord]

namespace Scanner

theorem run_word {text more rest : List Char} (chars : ∀ c ∈ more, isIdentifierPart c = true)
    (ends : EndsWord rest) :
    (word text).run (more ++ rest) = .word (text ++ more) :: code.run rest := by
  induction more generalizing text with
  | nil =>
    cases rest with
    | nil => simp [run, finish]
    | cons c rest => simp [run, step, (endsWord_cons c rest).mp ends]
  | cons c more ih =>
    have first := chars c (.head _)
    rw [List.cons_append, run]
    simp only [step, first, if_true, List.nil_append]
    rw [ih fun d member => chars d (.tail _ member)]
    simp

end Scanner

theorem tokens_word {name : String} (h : IsWord name) {rest : List Char} (ends : EndsWord rest) :
    tokens (name.toList ++ rest) = .word name.toList :: tokens rest := by
  obtain ⟨nonempty, chars⟩ := h
  cases hn : name.toList with
  | nil => exact absurd hn nonempty
  | cons c more =>
    rw [hn] at chars
    have first := chars c (.head _)
    have quote : c ≠ '"' := by rintro rfl; exact absurd first (by decide)
    have slash : c ≠ '/' := by rintro rfl; exact absurd first (by decide)
    have begins : Scanner.start c = (.word [c], []) := by
      simp [Scanner.start, quote, slash, first]
    rw [List.cons_append, tokens, Scanner.run, Scanner.step, begins]
    exact Scanner.run_word (fun d member => chars d (.tail _ member)) ends

theorem tokens_word_cons {name : String} (h : IsWord name) {c : Char}
    (ends : isIdentifierPart c = false) (rest : List Char) :
    tokens (name.toList ++ c :: rest) = .word name.toList :: tokens (c :: rest) :=
  tokens_word h ((endsWord_cons c rest).mpr ends)

theorem tokens_mark {c : Char} (h : Scanner.start c = (.code, [.mark c])) (rest : List Char) :
    tokens (c :: rest) = .mark c :: tokens rest := by
  rw [tokens, Scanner.run, Scanner.step, h]
  rfl

theorem tokens_blank {c : Char} (h : Scanner.start c = (.code, [])) (rest : List Char) :
    tokens (c :: rest) = tokens rest := by
  rw [tokens, Scanner.run, Scanner.step, h]
  rfl

/-- Nothing that is written for a character ends a literal. -/
theorem Scanner.run_escape (written : List Char) (c : Char) (rest : List Char) :
    (literal written).run (Json.escape c ++ rest) =
      (literal (written ++ Json.escape c)).run rest := by
  have plain : ∀ n < 0x20, Json.hexDigit (n / 16) ≠ '"' ∧ Json.hexDigit (n / 16) ≠ '\\' ∧
      Json.hexDigit (n % 16) ≠ '"' ∧ Json.hexDigit (n % 16) ≠ '\\' := by decide
  obtain ⟨letter, same, _⟩ | ⟨control, same⟩ | ⟨quote, backslash, _, same⟩ := Json.escape_cases c
  · rw [same]
    simp [run, step]
  · obtain ⟨high, high', low, low'⟩ := plain c.toNat control
    rw [same]
    simp [run, step, high, high', low, low']
  · rw [same]
    simp [run, step, quote, backslash]

theorem Scanner.run_flatMap_escape (written text rest : List Char) :
    (literal written).run (text.flatMap Json.escape ++ '"' :: rest) =
      .literal (written ++ text.flatMap Json.escape) :: code.run rest := by
  induction text generalizing written with
  | nil => simp [run, step]
  | cons c text ih =>
    rw [List.flatMap_cons, List.append_assoc, run_escape, ih, List.append_assoc]

theorem tokens_quoted (value : String) (rest : List Char) :
    tokens ((Json.quoted value).toList ++ rest) = literalToken value :: tokens rest := by
  have text : (Json.quoted value).toList ++ rest =
      '"' :: (value.toList.flatMap Json.escape ++ '"' :: rest) := by
    simp [Json.quoted]
  rw [text, tokens, Scanner.run]
  exact Scanner.run_flatMap_escape [] value.toList rest

end SchemaInterfaces
