import SchemaInterfaces.Proofs.Document
import SchemaInterfaces.Proofs.Number.Decimal
import SchemaInterfaces.Proofs.Toml.Quoted
import SchemaInterfaces.Toml.Reader

/-!
# Reading tables back

A document of tables with a line for each of their keys is read as these tables, if the keys are
bare and no key stands twice in a table and no table twice in the document (`read?_documentText`).
A line adds its key to the table that is open, a header opens the next one, and no step changes what
was read before.
-/
namespace SchemaInterfaces.Toml

/-! ### Characters -/

section

variable {kind : Char → Bool} {c d : Char}

/-- A character of a kind is none that is not of it. -/
theorem ne_of_kind (inside : kind c = true) (outside : kind d = false) : c ≠ d := by
  rintro rfl
  rw [inside] at outside
  cases outside

theorem isBlank_of_kind (inside : kind c = true) (space : kind ' ' = false)
    (tab : kind '\t' = false) : isBlank c = false := by
  rw [isBlank, Bool.or_eq_false_iff, beq_eq_false_iff_ne, beq_eq_false_iff_ne]
  exact ⟨ne_of_kind inside space, ne_of_kind inside tab⟩

end

/-! ### Values -/

/-- A text that is read as a value where a line ends behind it. -/
structure Spells (spelled : List Char) (value : Document) : Prop where
  reads : ∀ rounds depth rest,
    value? (rounds + 1) depth (spelled ++ '\n' :: rest) = some (value, '\n' :: rest)
  begins : ∀ rest, skipBlank (spelled ++ rest) = spelled ++ rest

theorem skipBlank_cons {c : Char} (solid : isBlank c = false) (rest : List Char) :
    skipBlank (c :: rest) = c :: rest := by
  simp [skipBlank, solid]

/-- A string begins with a quote. -/
theorem exists_quoted (text : String) :
    ∃ quote rest, (quoted text).toList = quote :: rest ∧ (quote = '"' ∨ quote = '\'') := by
  rw [quoted, String.toList_ofList]
  split
  · exact ⟨_, _, rfl, .inl rfl⟩
  · exact ⟨_, _, rfl, .inr rfl⟩
  · exact ⟨_, _, rfl, .inl rfl⟩
  · exact ⟨_, _, rfl, .inr rfl⟩

theorem spells_quoted (text : String) : Spells (quoted text).toList (.text text) := by
  obtain ⟨quote, inside, spelled, isQuote⟩ := exists_quoted text
  refine ⟨fun rounds depth rest => ?_, fun rest => ?_⟩
  · have read := string?_quoted text (by simp : ('\n' :: rest).head? ≠ some '"') (by simp)
    rw [spelled, List.cons_append] at read ⊢
    rcases isQuote with rfl | rfl <;> simp [value?, read]
  · rw [spelled, List.cons_append]
    rcases isQuote with rfl | rfl <;> exact skipBlank_cons (by decide) _

/-- The word of a scalar ends with the line. -/
theorem scalarWord_append {word : List Char} (inside : ∀ c ∈ word, isScalarCharacter c = true)
    (rest : List Char) : scalarWord (word ++ '\n' :: rest) = word := by
  have taken : (word ++ '\n' :: rest).takeWhile isScalarCharacter = word := by
    rw [List.takeWhile_append_of_pos inside, List.takeWhile_cons_of_neg (by decide),
      List.append_nil]
  rw [scalarWord, taken, List.drop_left]
  rfl

/-- Words of scalars spell their values. -/
theorem spells_of_scalar? {word : List Char} {value : Document} (nonempty : word ≠ [])
    (inside : ∀ c ∈ word, isScalarCharacter c = true) (means : scalar? word = some value) :
    Spells word value := by
  obtain ⟨c, more, rfl⟩ := List.exists_cons_of_ne_nil nonempty
  have first := inside c List.mem_cons_self
  refine ⟨fun rounds depth rest => ?_, fun rest => ?_⟩
  · have other {mark : Char} (outside : isScalarCharacter mark = false) : c ≠ mark :=
      ne_of_kind first outside
    have quotes : (c == '"' || c == '\'') = false := by
      rw [Bool.or_eq_false_iff, beq_eq_false_iff_ne, beq_eq_false_iff_ne]
      exact ⟨other (by decide), other (by decide)⟩
    have word := scalarWord_append inside rest
    rw [List.cons_append] at word ⊢
    rw [value?.eq_6 _ _ _ _ (other (by decide)) (other (by decide)), quotes]
    simp [word, means]
  · exact skipBlank_cons (isBlank_of_kind first (by decide) (by decide)) _

theorem spells_boolean (value : Bool) :
    Spells (if value then "true" else "false").toList (.boolean value) := by
  cases value
  · exact spells_of_scalar? (by decide) (List.all_eq_true.mp (by decide)) (by rfl)
  · exact spells_of_scalar? (by decide) (List.all_eq_true.mp (by decide)) (by rfl)

/-! Decimal digits have no sign, no mark of a base, and none of a date or a time. -/

section

variable {word : List Char} (digits : ∀ c ∈ word, c.isDigit = true)

include digits

theorem not_mem_of_digits {c : Char} (other : c.isDigit = false) : c ∉ word := fun member => by
  rw [digits c member] at other
  cases other

theorem digits?_of_digits (nonempty : word ≠ []) : digits? Char.isDigit word = some word := by
  fun_induction digits? Char.isDigit word with
  | case1 => exact absurd rfl nonempty
  | case2 c digit => rfl
  | case3 c noDigit => exact absurd (digits c List.mem_cons_self) noDigit
  | case4 c rest digit ih =>
    exact absurd (List.mem_cons_of_mem _ List.mem_cons_self) (not_mem_of_digits digits (by decide))
  | case5 c rest noDigit => exact absurd (digits c List.mem_cons_self) noDigit
  | case6 c rest single underscore digit ih =>
    obtain ⟨_, others⟩ := List.forall_mem_cons.mp digits
    rw [ih others single]
    rfl
  | case7 c rest single underscore noDigit => exact absurd (digits c List.mem_cons_self) noDigit

theorem isDate_of_digits (count : Nat) : isDate (word.take count) = false := by
  unfold isDate
  split
  next _ hyphen _ _ _ =>
    have member := List.take_subset _ _ (List.mem_of_getElem? hyphen)
    exact absurd member (not_mem_of_digits digits (by decide))
  next => rfl

theorem timeText?_of_digits : timeText? word = none := by
  unfold timeText?
  split
  next _ colon _ =>
    exact absurd (List.mem_of_getElem? colon) (not_mem_of_digits digits (by decide))
  next => rfl

theorem dateTimeText?_of_digits : dateTimeText? word = none := by
  rw [dateTimeText?, isDate_of_digits digits, timeText?_of_digits digits]
  rfl

theorem splitSign_of_digits : splitSign word = (false, word) := by
  unfold splitSign
  split
  · exact absurd List.mem_cons_self (not_mem_of_digits digits (by decide))
  · exact absurd List.mem_cons_self (not_mem_of_digits digits (by decide))
  · rfl

theorem integer?_of_digits {decimal : List Char} (spelled : decimalDigits? word = some decimal)
    (isWord : Digits.isWord (Decimal.ofDigits decimal) = true) :
    integer? word = some (Decimal.ofDigits decimal : Int) := by
  unfold integer?
  have second {c : Char} {rest : List Char} (other : c.isDigit = false)
      (same : word = '0' :: c :: rest) : False := by
    refine not_mem_of_digits digits other ?_
    rw [same]
    exact List.mem_cons_of_mem _ List.mem_cons_self
  split
  · exact absurd rfl (second (by decide))
  · exact absurd rfl (second (by decide))
  · exact absurd rfl (second (by decide))
  · rw [splitSign_of_digits digits]
    simp [spelled, Option.filter, isWord]

end

theorem decimalDigits?_toDigits (n : Nat) :
    decimalDigits? (Nat.toDigits 10 n) = some (Nat.toDigits 10 n) := by
  have digits (c : Char) (member : c ∈ Nat.toDigits 10 n) : c.isDigit = true :=
    Decimal.isDigit_of_mem_toDigits member
  rw [decimalDigits?, digits?_of_digits digits Nat.toDigits_ne_nil]
  refine if_neg fun ⟨zero, long⟩ => long ?_
  rw [Decimal.toDigits_of_head?_eq_zero zero]
  rfl

theorem spells_toDigits {n : Nat} (small : n ≤ Digits.maxSigned) :
    Spells (Nat.toDigits 10 n) (.number (.integer n)) := by
  have digits (c : Char) (member : c ∈ Nat.toDigits 10 n) : c.isDigit = true :=
    Decimal.isDigit_of_mem_toDigits member
  refine spells_of_scalar? Nat.toDigits_ne_nil (fun c member => ?_) ?_
  · simp [isScalarCharacter, Char.isAlphanum, digits c member]
  · have notTruth {word : String} (letter : ∃ c ∈ word.toList, c.isDigit = false) :
        Nat.toDigits 10 n ≠ word.toList := by
      obtain ⟨c, member, other⟩ := letter
      intro same
      exact not_mem_of_digits digits other (same ▸ member)
    rw [scalar?, if_neg (notTruth ⟨'t', by decide, by decide⟩),
      if_neg (notTruth ⟨'f', by decide, by decide⟩), dateTimeText?_of_digits digits,
      integer?_of_digits digits (decimalDigits?_toDigits n)
        (by rw [Decimal.ofDigits_toDigits, Digits.isWord_natCast small]),
      Decimal.ofDigits_toDigits]

/-! ### Lines -/

/-- A key that is written without quotes. -/
structure IsBareKey (key : String) : Prop where
  nonempty : key.toList ≠ []
  bare : ∀ c ∈ key.toList, isBare c = true

theorem IsBareKey.exists_cons {key : String} (isKey : IsBareKey key) :
    ∃ first rest, key.toList = first :: rest ∧ isBare first = true := by
  obtain ⟨first, rest, spelled⟩ := List.exists_cons_of_ne_nil isKey.nonempty
  exact ⟨first, rest, spelled, isKey.bare first (by rw [spelled]; exact List.mem_cons_self)⟩

section

variable {key : String} {c : Char} {behind : List Char}

theorem simpleKey?_bare (isKey : IsBareKey key) (stop : isBare c = false) :
    simpleKey? (key.toList ++ c :: behind) = some (key.toList, c :: behind) := by
  obtain ⟨first, more, spelled, bare⟩ := isKey.exists_cons
  have noQuote {quote : Char} (other : isBare quote = false) (rest : List Char)
      (same : key.toList ++ c :: behind = quote :: rest) : False := by
    rw [spelled, List.cons_append, List.cons.injEq] at same
    exact ne_of_kind bare other same.1
  have taken : (key.toList ++ c :: behind).takeWhile isBare = key.toList := by
    rw [List.takeWhile_append_of_pos isKey.bare, List.takeWhile_cons_of_neg (by simp [stop]),
      List.append_nil]
  rw [simpleKey?.eq_3 _ (noQuote (by decide)) (noQuote (by decide)), taken, List.drop_left,
    if_neg (by simpa using isKey.nonempty)]

theorem skipBlank_key (isKey : IsBareKey key) :
    skipBlank (key.toList ++ behind) = key.toList ++ behind := by
  obtain ⟨first, more, spelled, bare⟩ := isKey.exists_cons
  rw [spelled, List.cons_append,
    skipBlank_cons (isBlank_of_kind bare (by decide) (by decide))]

/-- A bare key without dots behind it. -/
theorem keyPath?_bare (isKey : IsBareKey key) (stop : isBare c = false)
    (noDot : (skipBlank (c :: behind)).head? ≠ some '.') (rounds : Nat) :
    keyPath? (rounds + 1) (key.toList ++ c :: behind) = some ([key], skipBlank (c :: behind)) := by
  rw [keyPath?, skipBlank_key isKey, simpleKey?_bare isKey stop]
  simp only [Option.bind_eq_bind, Option.bind_some, String.ofList_toList]
  split
  next dots => simp [dots] at noDot
  next => rfl

end

/-- A line that sets a key to a value. -/
structure Line where
  key : String
  spelled : List Char
  value : Document

namespace Line

def text (line : Line) : List Char :=
  line.key.toList ++ ([' ', '=', ' '] ++ (line.spelled ++ ['\n']))

structure IsReadable (line : Line) : Prop where
  key : IsBareKey line.key
  value : Spells line.spelled line.value

/-- The entry that a line adds to its table. -/
def entry (line : Line) : String × Item := (line.key, .value line.value)

end Line

/-- A line adds its key to the table that is open. -/
theorem keyValue?_line {line : Line} (readable : line.IsReadable) (progress : Progress)
    (rest : List Char) :
    keyValue? progress (line.text ++ rest) =
      (updateAt false (fun _ inner => addDotted [line.key] line.value inner) progress.header false
        progress.entries).map fun entries => ({ progress with entries }, rest) := by
  let behind := ' ' :: (line.spelled ++ '\n' :: rest)
  have spelled : line.text ++ rest = line.key.toList ++ ' ' :: '=' :: behind := by
    simp [Line.text, behind]
  have keys (rounds : Nat) : keyPath? (rounds + 1) (line.key.toList ++ ' ' :: '=' :: behind) =
      some ([line.key], '=' :: behind) :=
    keyPath?_bare readable.key (by decide) (by simp [skipBlank, isBlank]) rounds
  have value (rounds : Nat) : value? (rounds + 1) maxDepth (skipBlank behind) =
      some (line.value, '\n' :: rest) := by
    rw [show skipBlank behind = skipBlank (line.spelled ++ '\n' :: rest) from rfl,
      readable.value.begins, readable.value.reads]
  have ends : lineEnd? ('\n' :: rest) = some rest := rfl
  rw [keyValue?, spelled, keys]
  simp only [value, ends, Option.bind_eq_bind, Option.bind_some]
  rw [if_neg (by simp [maxDepth])]
  cases updateAt false (fun _ inner => addDotted [line.key] line.value inner) progress.header false
    progress.entries <;> rfl

/-! ### Tables -/

/-- A table of lines. -/
structure Table where
  name : String
  lines : List Line

namespace Table

def text (table : Table) : List Char :=
  '[' :: (table.name.toList ++ ([']', '\n'] ++ table.lines.flatMap Line.text))

structure IsReadable (table : Table) : Prop where
  name : IsBareKey table.name
  lines : ∀ line ∈ table.lines, line.IsReadable
  distinct : (table.lines.map Line.key).Nodup

/-- The entry that a table adds to the document. -/
def entry (table : Table) : String × Item :=
  (table.name, .table false false (table.lines.map Line.entry))

end Table

/-- Characters at which no line ends and no comment begins. -/
theorem skipLines_cons {c : Char} (solid : isBlank c = false) (noComment : c ≠ '#')
    (noBreak : c ≠ '\n') (noReturn : c ≠ '\r') (rounds : Nat) (rest : List Char) :
    skipLines rounds (c :: rest) = c :: rest := by
  cases rounds with
  | zero => rfl
  | succ rounds =>
    have here : skipComment (c :: rest) = c :: rest := by
      rw [skipComment.eq_2]
      simpa using noComment
    rw [skipLines, skipBlank_cons solid, here, newline?_eq_none noBreak noReturn]

/-- An empty line does not count. -/
theorem lines?_break (rounds : Nat) (progress : Progress) (text : List Char) :
    lines? rounds progress ('\n' :: text) = lines? rounds progress text := by
  cases rounds with
  | zero => rfl
  | succ rounds =>
    have passed : skipLines (('\n' :: text).length + 1) ('\n' :: text) =
        skipLines (text.length + 1) text := rfl
    rw [lines?, passed, ← lines?]

theorem lines?_line {line : Line} (readable : line.IsReadable) (rounds : Nat) (progress : Progress)
    (rest : List Char) :
    lines? (rounds + 1) progress (line.text ++ rest) =
      (updateAt false (fun _ inner => addDotted [line.key] line.value inner) progress.header false
        progress.entries).bind fun entries => lines? rounds { progress with entries } rest := by
  have read := keyValue?_line readable progress rest
  obtain ⟨first, more, spelled, bare⟩ := readable.key.exists_cons
  have other {mark : Char} (outside : isBare mark = false) : first ≠ mark :=
    ne_of_kind bare outside
  obtain ⟨behind, text⟩ : ∃ behind, line.text ++ rest = first :: behind :=
    ⟨_, by rw [Line.text, spelled, List.cons_append, List.cons_append]⟩
  rw [text] at read ⊢
  rw [lines?, skipLines_cons (isBlank_of_kind bare (by decide) (by decide)) (other (by decide))
    (other (by decide)) (other (by decide))]
  split
  next same => cases same
  next same => exact absurd (List.cons.inj same).1 (other (by decide))
  next same => exact absurd (List.cons.inj same).1 (other (by decide))
  next =>
    rw [read]
    cases updateAt false (fun _ inner => addDotted [line.key] line.value inner) progress.header
      false progress.entries <;> rfl

/-- A header opens its table. -/
theorem lines?_header {name : String} (isKey : IsBareKey name) (rounds : Nat) (progress : Progress)
    (rest : List Char) :
    lines? (rounds + 1) progress ('[' :: (name.toList ++ (']' :: '\n' :: rest))) =
      (openTable [name] progress.entries).bind fun entries =>
        lines? rounds ⟨entries, [name]⟩ rest := by
  have keys (rounds : Nat) : keyPath? (rounds + 1) (name.toList ++ (']' :: '\n' :: rest)) =
      some ([name], ']' :: '\n' :: rest) :=
    keyPath?_bare isKey (by decide) (by simp [skipBlank, isBlank]) rounds
  have read : header? [']'] (name.toList ++ (']' :: '\n' :: rest)) = some ([name], rest) := by
    rw [header?, keys]
    rfl
  obtain ⟨first, more, spelled, bare⟩ := isKey.exists_cons
  have single : first ≠ '[' := ne_of_kind bare (by decide)
  rw [lines?, skipLines_cons (by decide) (by decide) (by decide) (by decide)]
  split
  next same => cases same
  next same =>
    rw [spelled] at same
    exact absurd (List.cons.inj (List.cons.inj same).2).1 single
  next same =>
    rw [← (List.cons.inj same).2, read]
    rfl
  next notTable => exact absurd rfl (notTable _)

section

variable {front : Entries} {name : String}

/-- A header of a new name adds an empty table. -/
theorem openTable_new (new : name ∉ front.map Prod.fst) :
    openTable [name] front = some (front ++ [(name, Item.table false false [])]) := by
  simp only [openTable, List.getLast?_singleton, List.dropLast_singleton, updateAt,
    lookup_of_not_mem new, insertEntry_of_not_mem new]

/-- A line of a new key adds its entry to the table that was opened last. -/
theorem updateAt_line (new : name ∉ front.map Prod.fst) {inner : Entries} {line : Line}
    (newKey : line.key ∉ inner.map Prod.fst) :
    updateAt false (fun _ inner => addDotted [line.key] line.value inner) [name] false
        (front ++ [(name, .table false false inner)]) =
      some (front ++ [(name, .table false false (inner ++ [line.entry]))]) := by
  have added : addDotted [line.key] line.value inner = some (inner ++ [line.entry]) := by
    change addNew line.key (.value line.value) inner = _
    rw [addNew, lookup_of_not_mem newKey, insertEntry_of_not_mem newKey]
    rfl
  rw [updateAt, lookup_concat_self new]
  simp only [Bool.false_and, Bool.false_eq_true, if_false, updateAt, added, Option.map_some,
    insertEntry_concat_self new]

/-- The lines of a table, after some of them. -/
theorem lines?_lines (new : name ∉ front.map Prod.fst) (todo done : List Line)
    (readable : ∀ line ∈ todo, line.IsReadable) (distinct : ((done ++ todo).map Line.key).Nodup)
    (rounds : Nat) (rest : List Char) :
    lines? (rounds + todo.length)
        ⟨front ++ [(name, .table false false (done.map Line.entry))], [name]⟩
        (todo.flatMap Line.text ++ rest) =
      lines? rounds ⟨front ++ [(name, .table false false ((done ++ todo).map Line.entry))], [name]⟩
        rest := by
  induction todo generalizing done with
  | nil =>
    rw [List.append_nil]
    rfl
  | cons line todo ih =>
    obtain ⟨here, others⟩ := List.forall_mem_cons.mp readable
    have newKey : line.key ∉ (done.map Line.entry).map Prod.fst := by
      rw [List.map_map]
      rw [List.map_append, List.map_cons, List.nodup_append] at distinct
      exact fun member => distinct.2.2 _ member _ List.mem_cons_self rfl
    have distinct' : ((done ++ [line] ++ todo).map Line.key).Nodup := by
      rwa [List.append_assoc, List.singleton_append]
    have further := ih (done ++ [line]) others distinct'
    rw [List.map_append, List.map_singleton, List.append_assoc, List.singleton_append] at further
    rw [List.length_cons, ← Nat.add_assoc, List.flatMap_cons, List.append_assoc, lines?_line here,
      updateAt_line new newKey]
    exact further

/-- A table of a new name is added to the document. -/
theorem lines?_table {table : Table} (readable : table.IsReadable)
    (new : table.name ∉ front.map Prod.fst) (header : List String) (rounds : Nat)
    (rest : List Char) :
    lines? (rounds + (table.lines.length + 1)) ⟨front, header⟩ (table.text ++ rest) =
      lines? rounds ⟨front ++ [table.entry], [table.name]⟩ rest := by
  have spelled : table.text ++ rest =
      '[' :: (table.name.toList ++ (']' :: '\n' :: (table.lines.flatMap Line.text ++ rest))) := by
    simp [Table.text]
  have inside := lines?_lines new table.lines [] readable.lines readable.distinct rounds rest
  rw [spelled, ← Nat.add_assoc, lines?_header readable.name, openTable_new new]
  exact inside

end

/-- How many rounds the tables take. -/
def lineCount : List Table → Nat
  | [] => 0
  | table :: tables => lineCount tables + (table.lines.length + 1)

/-- Tables of new names with empty lines before them. -/
theorem lines?_tables (tables : List Table) (front : Entries) (header : List String)
    (readable : ∀ table ∈ tables, table.IsReadable)
    (distinct : (front.map Prod.fst ++ tables.map Table.name).Nodup) (rounds : Nat) :
    (lines? (rounds + 1 + lineCount tables) ⟨front, header⟩
        (tables.flatMap fun table => '\n' :: table.text)).map Progress.entries =
      some (front ++ tables.map Table.entry) := by
  induction tables generalizing front header with
  | nil =>
    rw [List.map_nil, List.append_nil]
    rfl
  | cons table tables ih =>
    obtain ⟨here, others⟩ := List.forall_mem_cons.mp readable
    rw [List.map_cons] at distinct
    have new : table.name ∉ front.map Prod.fst := by
      rw [List.nodup_append] at distinct
      exact fun member => distinct.2.2 _ member _ List.mem_cons_self rfl
    have distinct' :
        ((front ++ [table.entry]).map Prod.fst ++ tables.map Table.name).Nodup := by
      rw [List.map_append, List.append_assoc]
      exact distinct
    have further := ih (front ++ [table.entry]) [table.name] others distinct'
    rw [List.append_assoc, List.singleton_append] at further
    rw [List.flatMap_cons, List.cons_append, lines?_break, lineCount, ← Nat.add_assoc,
      lines?_table here new, further, List.map_cons]

/-! ### Documents -/

/-- A document of tables, with an empty line between two of them. -/
def documentText : List Table → List Char
  | [] => []
  | table :: tables => table.text ++ tables.flatMap fun table => '\n' :: table.text

theorem length_le_linesText (lines : List Line) :
    lines.length ≤ (lines.flatMap Line.text).length := by
  induction lines with
  | nil => exact Nat.le_refl _
  | cons line lines ih =>
    have written : 0 < line.text.length := by
      rw [Line.text, List.length_append, List.length_append, List.length_cons]
      omega
    rw [List.flatMap_cons, List.length_append, List.length_cons]
    omega

theorem lineCount_le (tables : List Table) :
    lineCount tables + tables.length ≤ (tables.flatMap fun table => '\n' :: table.text).length := by
  induction tables with
  | nil => exact Nat.le_refl _
  | cons table tables ih =>
    have written := length_le_linesText table.lines
    rw [lineCount, List.length_cons, List.flatMap_cons, List.length_append, List.length_cons,
      Table.text, List.length_cons, List.length_append, List.length_append]
    omega

/-- The document that tables are read as. -/
def tableDocuments (tables : List Table) : List (String × Document) :=
  tables.map fun table =>
    (table.name, .mapping (table.lines.map fun line => (line.key, line.value)))

theorem documents_lines (lines : List Line) :
    documents (lines.map Line.entry) = lines.map fun line => (line.key, line.value) := by
  induction lines with
  | nil => rfl
  | cons line lines ih =>
    rw [List.map_cons, Line.entry, documents, ih, List.map_cons]
    rfl

theorem documents_tables (tables : List Table) :
    documents (tables.map Table.entry) = tableDocuments tables := by
  induction tables with
  | nil => rfl
  | cons table tables ih =>
    rw [List.map_cons, Table.entry, documents, ih, Item.document, documents_lines]
    rfl

/-- What is written as tables is read as these tables. -/
theorem read?_documentText {tables : List Table} (readable : ∀ table ∈ tables, table.IsReadable)
    (distinct : (tables.map Table.name).Nodup) :
    read? (String.ofList (documentText tables)) = some (tableDocuments tables) := by
  cases tables with
  | nil => rfl
  | cons table tables =>
    have long := lineCount_le (table :: tables)
    obtain ⟨more, spelled⟩ : ∃ more, documentText (table :: tables) = '[' :: more := ⟨_, rfl⟩
    have blank : ((table :: tables).flatMap fun table => '\n' :: table.text) =
        '\n' :: '[' :: more := by
      rw [← spelled]
      rfl
    rw [blank] at long
    simp only [List.length_cons] at long
    obtain ⟨rounds, enough⟩ : ∃ rounds, ('[' :: more).length + 1 =
        rounds + 1 + lineCount (table :: tables) :=
      ⟨('[' :: more).length - lineCount (table :: tables), by rw [List.length_cons]; omega⟩
    have read := lines?_tables (table :: tables) [] [] readable distinct rounds
    rw [blank, lines?_break, ← enough] at read
    obtain ⟨progress, done, entries⟩ := Option.map_eq_some_iff.mp read
    rw [read?, String.toList_ofList, spelled]
    change (lines? (('[' :: more).length + 1) {} ('[' :: more)).map _ = _
    rw [done, Option.map_some, entries, List.nil_append, documents_tables]

end SchemaInterfaces.Toml
