import SchemaInterfaces.Json.Reader
import SchemaInterfaces.Json.Writer
import SchemaInterfaces.Proofs.Document
import SchemaInterfaces.Proofs.Json.Number
import SchemaInterfaces.Proofs.Json.Quoted
import SchemaInterfaces.Proofs.Schema.KeyWalk

/-!
# Reading documents back

A document with integers of 64 bits, with each key of a mapping once and at most 127 levels deep, is
read from its compact JSON text as it is, its entries in their order (`read_write`). The reader goes
on behind a value with whatever follows it, so the statement for parts of a document has the rest of
the text as a variable. One induction on the document carries it; items and entries are read by an
induction on their lists.
-/
namespace SchemaInterfaces

namespace Document

/-! ### What JSON text holds exactly -/

mutual

/-- How many sequences and mappings are nested in each other. -/
def depth : Document → Nat
  | sequence items => itemsDepth items + 1
  | mapping entries => valuesDepth entries + 1
  | null | boolean _ | number _ | text _ => 0

def itemsDepth : List Document → Nat
  | [] => 0
  | item :: rest => max item.depth (itemsDepth rest)

def valuesDepth : List (String × Document) → Nat
  | [] => 0
  | (_, value) :: rest => max value.depth (valuesDepth rest)

end

mutual

/-- Whether all numbers of a document are integers of 64 bits, with a sign or without. -/
def hasWords : Document → Bool
  | number (.integer n) => Digits.fitsSigned 64 n || Digits.fitsUnsigned 64 n
  | number (.real _) => false
  | sequence items => itemsHaveWords items
  | mapping entries => valuesHaveWords entries
  | null | boolean _ | text _ => true

def itemsHaveWords : List Document → Bool
  | [] => true
  | item :: rest => hasWords item && itemsHaveWords rest

def valuesHaveWords : List (String × Document) → Bool
  | [] => true
  | (_, value) :: rest => hasWords value && valuesHaveWords rest

end

theorem itemsDepth_le_iff (items : List Document) (limit : Nat) :
    itemsDepth items ≤ limit ↔ ∀ item ∈ items, item.depth ≤ limit := by
  induction items with
  | nil => simp [itemsDepth]
  | cons item rest ih => rw [itemsDepth, Nat.max_le, ih, List.forall_mem_cons]

theorem valuesDepth_le_iff (entries : List (String × Document)) (limit : Nat) :
    valuesDepth entries ≤ limit ↔ ∀ entry ∈ entries, entry.2.depth ≤ limit := by
  induction entries with
  | nil => simp [valuesDepth]
  | cons entry rest ih => rw [valuesDepth, Nat.max_le, ih, List.forall_mem_cons]

theorem itemsHaveWords_iff (items : List Document) :
    itemsHaveWords items = true ↔ ∀ item ∈ items, item.hasWords = true := by
  induction items with
  | nil => simp [itemsHaveWords]
  | cons item rest ih => simp [itemsHaveWords, ih]

theorem valuesHaveWords_iff (entries : List (String × Document)) :
    valuesHaveWords entries = true ↔ ∀ entry ∈ entries, entry.2.hasWords = true := by
  induction entries with
  | nil => simp [valuesHaveWords]
  | cons entry rest ih => simp [valuesHaveWords, ih]

theorem itemsDistinct_iff (items : List Document) :
    itemsDistinct items = true ↔ ∀ item ∈ items, item.hasDistinctKeys = true := by
  induction items with
  | nil => simp [itemsDistinct]
  | cons item rest ih => simp [itemsDistinct, ih]

/-- What holds of single values, and passes from the parts of a document to the document, holds of
all. -/
@[elab_as_elim]
theorem induction_on_parts {motive : Document → Prop} (document : Document)
    (onNull : motive null) (onBoolean : ∀ value, motive (boolean value))
    (onNumber : ∀ value, motive (number value)) (onText : ∀ value, motive (text value))
    (onSequence : ∀ items, (∀ item ∈ items, motive item) → motive (sequence items))
    (onMapping : ∀ entries, (∀ entry ∈ entries, motive entry.2) → motive (mapping entries)) :
    motive document :=
  match document with
  | null => onNull
  | boolean value => onBoolean value
  | number value => onNumber value
  | text value => onText value
  | sequence items => onSequence items fun item _ =>
      induction_on_parts item onNull onBoolean onNumber onText onSequence onMapping
  | mapping entries => onMapping entries fun entry _ =>
      induction_on_parts entry.2 onNull onBoolean onNumber onText onSequence onMapping
termination_by sizeOf document
decreasing_by
  · have smaller := List.sizeOf_lt_of_mem ‹_ ∈ items›
    rw [sequence.sizeOf_spec]
    omega
  · have smaller := sizeOf_lt_of_mem ‹_ ∈ entries›
    rw [mapping.sizeOf_spec]
    omega

end Document

/-- Entries with each key once are built as they are written. -/
theorem entriesOf_of_nodup {α : Type} {entries : List (String × α)}
    (distinct : (entries.map Prod.fst).Nodup) : entriesOf entries = entries := by
  have build (front more : List (String × α)) (distinct : ((front ++ more).map Prod.fst).Nodup) :
      more.foldl (fun entries pair => insertEntry pair.1 pair.2 entries) front = front ++ more := by
    induction more generalizing front with
    | nil => rw [List.foldl_nil, List.append_nil]
    | cons entry more ih =>
      obtain ⟨key, value⟩ := entry
      have split : front ++ (key, value) :: more = front ++ [(key, value)] ++ more := by simp
      have new : key ∉ front.map Prod.fst := by
        rw [List.map_append, List.nodup_append] at distinct
        exact fun member => distinct.2.2 key member key (by simp) rfl
      rw [List.foldl_cons, insertEntry_of_not_mem new, split]
      exact ih _ (by rwa [← split])
  exact build [] entries distinct

namespace Json

theorem skipSpace_cons {c : Char} (visible : isSpace c = false) (rest : List Char) :
    skipSpace (c :: rest) = c :: rest := by
  simp [skipSpace, visible]

theorem isSpace_of_isDigit {c : Char} (digit : c.isDigit = true) : isSpace c = false := by
  rw [Bool.eq_false_iff]
  intro space
  simp only [isSpace, Bool.or_eq_true, beq_iff_eq] at space
  rcases space with ((rfl | rfl) | rfl) | rfl <;> cases digit

/-! ### What the first character of a value leads to -/

section

variable (budget depth : Nat) (rest : List Char)

theorem readValue_quote :
    readValue (budget + 1) depth ('"' :: rest) =
      (readText rest).map fun (value, rest) => (.text (String.ofList value), rest) := by
  rw [readValue, skipSpace_cons rfl]
  rfl

theorem readValue_minus :
    readValue (budget + 1) depth ('-' :: rest) =
      (readNumber true rest).map fun (number, rest) => (.number number, rest) := by
  rw [readValue, skipSpace_cons rfl]
  rfl

theorem readValue_digit {c : Char} (digit : c.isDigit = true) :
    readValue (budget + 1) depth (c :: rest) =
      (readNumber false (c :: rest)).map fun (number, rest) => (.number number, rest) := by
  have visible : isSpace c = false := isSpace_of_isDigit digit
  have ne (d : Char) (other : d.isDigit = false) : c ≠ d := by
    rintro rfl
    rw [digit] at other
    cases other
  rw [readValue, skipSpace_cons visible]
  simp [ne 'n' rfl, ne 't' rfl, ne 'f' rfl, ne '-' rfl, ne '"' rfl, ne '[' rfl, ne '\x7b' rfl, digit]

theorem readValue_emptyList :
    readValue (budget + 1) (depth + 1) ('[' :: ']' :: rest) = .ok (.sequence [], rest) := by
  rw [readValue, skipSpace_cons rfl]
  rfl

theorem readValue_emptyObject :
    readValue (budget + 1) (depth + 1) ('\x7b' :: '\x7d' :: rest) = .ok (.mapping [], rest) := by
  rw [readValue, skipSpace_cons rfl]
  rfl

theorem readValue_list {c : Char} (visible : isSpace c = false) (opens : c ≠ ']') :
    readValue (budget + 1) (depth + 1) ('[' :: c :: rest) =
      (readItems budget depth (c :: rest)).map fun (items, rest) => (.sequence items, rest) := by
  rw [readValue, skipSpace_cons rfl]
  simp [skipSpace_cons visible, opens]

theorem readValue_object :
    readValue (budget + 1) (depth + 1) ('\x7b' :: '"' :: rest) =
      (readEntries budget depth ('"' :: rest)).map fun (pairs, rest) =>
        (.mapping (entriesOf pairs), rest) := by
  rw [readValue, skipSpace_cons rfl]
  rfl

end

/-! ### What stands behind an item or an entry -/

section

variable {budget depth : Nat} {text rest : List Char}

theorem readItems_last {item : Document}
    (first : readValue budget depth text = .ok (item, ']' :: rest)) :
    readItems (budget + 1) depth text = .ok ([item], rest) := by
  rw [readItems, first]
  rfl

theorem readItems_comma {item : Document} {c : Char}
    (first : readValue budget depth text = .ok (item, ',' :: c :: rest))
    (visible : isSpace c = false) (opens : c ≠ ']') :
    readItems (budget + 1) depth text =
      (readItems budget depth (c :: rest)).map fun (items, rest) => (item :: items, rest) := by
  rw [readItems, first]
  simp [bind, Except.bind, skipSpace_cons (c := ',') rfl, skipSpace_cons visible, opens]

variable {key : List Char} {valueText : List Char} {value : Document}
  (named : readText text = .ok (key, ':' :: valueText))

include named

theorem readEntries_last (first : readValue budget depth valueText = .ok (value, '\x7d' :: rest)) :
    readEntries (budget + 1) depth ('"' :: text) = .ok ([(String.ofList key, value)], rest) := by
  rw [readEntries, named]
  simp [bind, Except.bind, colon, skipSpace_cons (c := ':') rfl, first,
    skipSpace_cons (c := '\x7d') rfl]

theorem readEntries_comma
    (first : readValue budget depth valueText = .ok (value, ',' :: '"' :: rest)) :
    readEntries (budget + 1) depth ('"' :: text) =
      (readEntries budget depth ('"' :: rest)).map fun (entries, rest) =>
        ((String.ofList key, value) :: entries, rest) := by
  rw [readEntries, named]
  simp [bind, Except.bind, colon, skipSpace_cons (c := ':') rfl, first,
    skipSpace_cons (c := ',') rfl, skipSpace_cons (c := '"') rfl]

end

/-- A text that begins with a character that is no space and closes no list. -/
def BeginsValue (text : List Char) : Prop :=
  ∃ c rest, text = c :: rest ∧ isSpace c = false ∧ c ≠ ']'

/-- A document is read from its text with whatever follows, where `depth` more levels may be opened.
A budget of twice the whole text is enough. -/
structure ReadsBack (depth : Nat) (document : Document) : Prop where
  begins : BeginsValue (write document).toList
  reads : ∀ budget rest, EndsNumber rest →
    2 * ((write document).toList ++ rest).length ≤ budget →
      readValue budget depth ((write document).toList ++ rest) = .ok (document, rest)

/-! ### Single values -/

section

variable {depth : Nat} {document : Document}

/-- A value has text, so at least one step is left for it. -/
theorem ReadsBack.of_step (begins : BeginsValue (write document).toList)
    (step : ∀ budget rest, EndsNumber rest →
      2 * ((write document).toList ++ rest).length ≤ budget + 1 →
        readValue (budget + 1) depth ((write document).toList ++ rest) = .ok (document, rest)) :
    ReadsBack depth document := by
  refine ⟨begins, fun budget rest ends enough => ?_⟩
  obtain ⟨c, more, text, _⟩ := begins
  cases budget with
  | zero =>
    rw [text] at enough
    simp at enough
  | succ budget => exact step budget rest ends enough

theorem readsBack_null : ReadsBack depth .null := by
  have text : (write .null).toList = ['n', 'u', 'l', 'l'] := rfl
  refine .of_step ⟨_, _, text, rfl, by decide⟩ fun budget rest _ _ => ?_
  rw [text, readValue]
  rfl

theorem readsBack_boolean (value : Bool) : ReadsBack depth (.boolean value) := by
  cases value with
  | false =>
    have text : (write (.boolean false)).toList = ['f', 'a', 'l', 's', 'e'] := rfl
    refine .of_step ⟨_, _, text, rfl, by decide⟩ fun budget rest _ _ => ?_
    rw [text, readValue]
    rfl
  | true =>
    have text : (write (.boolean true)).toList = ['t', 'r', 'u', 'e'] := rfl
    refine .of_step ⟨_, _, text, rfl, by decide⟩ fun budget rest _ _ => ?_
    rw [text, readValue]
    rfl

theorem toList_quoted (text : String) :
    (quoted text).toList = '"' :: (text.toList.flatMap escape ++ ['"']) := by
  simp [quoted]

theorem readsBack_text (value : String) : ReadsBack depth (.text value) := by
  have text : (write (.text value)).toList = '"' :: (value.toList.flatMap escape ++ ['"']) := by
    rw [write, toList_quoted]
  refine .of_step ⟨_, _, text, rfl, by decide⟩ fun budget rest _ _ => ?_
  rw [text, List.cons_append, List.append_assoc, List.singleton_append, readValue_quote,
    readText_flatMap_escape]
  simp [Except.map]

/-- An integer that has 64 bits with a sign, or without one. -/
theorem bounds_of_hasWords {n : Int} (words : (Document.number (.integer n)).hasWords = true) :
    -(Nat.pow 2 63 : Int) ≤ n ∧ n ≤ wordMax := by
  have signed : Nat.pow 2 63 = 9223372036854775808 := rfl
  have unsigned : Nat.pow 2 64 = 18446744073709551616 := rfl
  simp only [Document.hasWords, Digits.fitsSigned, Digits.fitsUnsigned, Nat.reduceSub, Bool.or_eq_true,
    Bool.and_eq_true, decide_eq_true_eq, wordMax, signed, unsigned] at words ⊢
  omega

theorem readsBack_integer {n : Int} (words : (Document.number (.integer n)).hasWords = true) :
    ReadsBack depth (.number (.integer n)) := by
  obtain ⟨low, high⟩ := bounds_of_hasWords words
  cases n with
  | ofNat n =>
    have text : (write (.number (.integer (.ofNat n)))).toList = Nat.toDigits 10 n := by
      simp [write, numberText, integerText, Decimal.digitsOf]
    cases digits : Nat.toDigits 10 n with
    | nil => exact absurd digits Nat.toDigits_ne_nil
    | cons first more =>
      have digit : first.isDigit = true :=
        Decimal.isDigit_of_mem_toDigits (by rw [digits]; exact .head _)
      have opens : first ≠ ']' := by
        rintro rfl
        cases digit
      refine .of_step ⟨first, more, text.trans digits, isSpace_of_isDigit digit, opens⟩
        fun budget rest ends _ => ?_
      have small : n ≤ wordMax := Int.ofNat_le.mp high
      rw [text, digits, List.cons_append, readValue_digit _ _ _ digit, ← List.cons_append, ← digits,
        readNumber_digits ends false small]
      rfl
  | negSucc n =>
    have text : (write (.number (.integer (.negSucc n)))).toList = '-' :: Nat.toDigits 10 (n + 1) := by
      simp [write, numberText, integerText, Decimal.digitsOf]
    refine .of_step ⟨'-', _, text, rfl, by decide⟩ fun budget rest ends _ => ?_
    have signed : Nat.pow 2 63 = 9223372036854775808 := rfl
    have small : n + 1 ≤ Nat.pow 2 63 := by omega
    have fits : n + 1 ≤ wordMax := Nat.le_trans small (by decide)
    have whole : wholeNumber true (n + 1) = .integer (.negSucc n) := by
      rw [wholeNumber, if_neg (by decide), if_neg (by omega)]
      rfl
    rw [text, List.cons_append, readValue_minus, readNumber_digits ends true fits, whole]
    rfl

end

/-! ### Sequences -/

theorem beginsValue_append {text : List Char} (begins : BeginsValue text) (rest : List Char) :
    BeginsValue (text ++ rest) := by
  obtain ⟨c, more, rfl, visible, opens⟩ := begins
  exact ⟨c, more ++ rest, rfl, visible, opens⟩

theorem endsNumber_cons {c : Char} (digit : c.isDigit = false)
    (other : c ≠ '.' ∧ c ≠ 'e' ∧ c ≠ 'E') (rest : List Char) : EndsNumber (c :: rest) := by
  rintro _ ⟨rfl⟩
  exact ⟨digit, other⟩

section

variable {depth : Nat}

theorem begins_writeItems {items : List Document} (nonempty : items ≠ [])
    (reads : ∀ item ∈ items, ReadsBack depth item) : BeginsValue (writeItems items).toList := by
  cases items with
  | nil => exact absurd rfl nonempty
  | cons item more =>
    have begins := (reads item (.head _)).begins
    cases more with
    | nil => rwa [writeItems]
    | cons next more =>
      rw [writeItems, String.append_assoc, String.toList_append]
      · exact beginsValue_append begins _
      · simp

/-- Items are read up to and with the closing bracket. -/
theorem readItems_writeItems {items : List Document} (nonempty : items ≠ [])
    (reads : ∀ item ∈ items, ReadsBack depth item) (budget : Nat) (rest : List Char)
    (enough : 2 * ((writeItems items).toList ++ ']' :: rest).length < budget) :
    readItems budget depth ((writeItems items).toList ++ ']' :: rest) = .ok (items, rest) := by
  induction items generalizing budget with
  | nil => exact absurd rfl nonempty
  | cons item more ih =>
    obtain ⟨budget, rfl⟩ : ∃ b, budget = b + 1 := ⟨budget - 1, by omega⟩
    obtain ⟨first, others⟩ := List.forall_mem_cons.mp reads
    cases more with
    | nil =>
      rw [writeItems] at enough ⊢
      exact readItems_last
        (first.reads budget (']' :: rest) (endsNumber_cons rfl (by decide) rest) (by omega))
    | cons next more =>
      have text : (writeItems (item :: next :: more)).toList ++ ']' :: rest =
          (write item).toList ++ ',' :: ((writeItems (next :: more)).toList ++ ']' :: rest) := by
        rw [writeItems]
        · simp
        · simp
      rw [text] at enough ⊢
      have shorter : 2 * ((writeItems (next :: more)).toList ++ ']' :: rest).length < budget := by
        simp only [List.length_append, List.length_cons] at enough ⊢
        omega
      have further := ih (by simp) others budget shorter
      obtain ⟨c, tail, begins, visible, opens⟩ :=
        beginsValue_append (begins_writeItems (by simp) others) (']' :: rest)
      rw [begins] at enough further ⊢
      rw [readItems_comma (first.reads budget (',' :: c :: tail)
        (endsNumber_cons rfl (by decide) _) (by omega)) visible opens, further]
      rfl

theorem readsBack_sequence {items : List Document} (reads : ∀ item ∈ items, ReadsBack depth item) :
    ReadsBack (depth + 1) (.sequence items) := by
  have text (rest : List Char) : (write (.sequence items)).toList ++ rest =
      '[' :: ((writeItems items).toList ++ ']' :: rest) := by
    simp [write]
  refine .of_step ⟨'[', _, by simpa using text [], rfl, by decide⟩ fun budget rest _ enough => ?_
  rw [text] at enough ⊢
  by_cases empty : items = []
  · rw [empty]
    exact readValue_emptyList budget depth rest
  · have inside := readItems_writeItems empty reads budget rest
      (by rw [List.length_cons] at enough; omega)
    obtain ⟨c, tail, begins, visible, opens⟩ :=
      beginsValue_append (begins_writeItems empty reads) (']' :: rest)
    rw [begins] at inside ⊢
    rw [readValue_list budget depth tail visible opens, inside]
    rfl

/-! ### Mappings -/

/-- The text of entries begins with the quote of the first key. -/
theorem begins_writeEntries {entries : List (String × Document)} (nonempty : entries ≠ []) :
    ∃ tail, (writeEntries entries).toList = '"' :: tail := by
  match entries with
  | [(key, value)] => exact ⟨_, by simp [writeEntries, toList_quoted]; rfl⟩
  | (key, value) :: next :: more => exact ⟨_, by simp [writeEntries, toList_quoted]; rfl⟩

/-- Entries are read up to and with the closing brace. -/
theorem readEntries_writeEntries {entries : List (String × Document)} (nonempty : entries ≠ [])
    (reads : ∀ entry ∈ entries, ReadsBack depth entry.2) (budget : Nat) (rest : List Char)
    (enough : 2 * ((writeEntries entries).toList ++ '\x7d' :: rest).length < budget) :
    readEntries budget depth ((writeEntries entries).toList ++ '\x7d' :: rest) =
      .ok (entries, rest) := by
  induction entries generalizing budget with
  | nil => exact absurd rfl nonempty
  | cons entry more ih =>
    obtain ⟨key, value⟩ := entry
    obtain ⟨budget, rfl⟩ : ∃ b, budget = b + 1 := ⟨budget - 1, by omega⟩
    obtain ⟨first, others⟩ := List.forall_mem_cons.mp reads
    have named (text : List Char) :
        readText (key.toList.flatMap escape ++ '"' :: ':' :: text) = .ok (key.toList, ':' :: text) :=
      readText_flatMap_escape key.toList _
    cases more with
    | nil =>
      have text : (writeEntries [(key, value)]).toList ++ '\x7d' :: rest =
          '"' :: (key.toList.flatMap escape ++
            '"' :: ':' :: ((write value).toList ++ '\x7d' :: rest)) := by
        simp [writeEntries, toList_quoted]
      rw [text] at enough ⊢
      simp only [List.length_append, List.length_cons] at enough
      have firstRead := first.reads budget ('\x7d' :: rest) (endsNumber_cons rfl (by decide) rest)
        (by simp only [List.length_append, List.length_cons]; omega)
      rw [readEntries_last (named _) firstRead, String.ofList_toList]
    | cons next more =>
      have text : (writeEntries ((key, value) :: next :: more)).toList ++ '\x7d' :: rest =
          '"' :: (key.toList.flatMap escape ++ '"' :: ':' :: ((write value).toList ++
            ',' :: ((writeEntries (next :: more)).toList ++ '\x7d' :: rest))) := by
        simp [writeEntries, toList_quoted]
      rw [text] at enough ⊢
      simp only [List.length_append, List.length_cons] at enough
      have further := ih (by simp) others budget
        (by simp only [List.length_append, List.length_cons]; omega)
      have firstRead := first.reads budget
        (',' :: ((writeEntries (next :: more)).toList ++ '\x7d' :: rest))
        (endsNumber_cons rfl (by decide) _)
        (by simp only [List.length_append, List.length_cons]; omega)
      obtain ⟨tail, begins⟩ := begins_writeEntries (List.cons_ne_nil next more)
      rw [begins, List.cons_append] at further firstRead ⊢
      rw [readEntries_comma (named _) firstRead, further, String.ofList_toList]
      rfl

/-- The entries keep their order, because no key replaces another. -/
theorem readsBack_mapping {entries : List (String × Document)}
    (distinct : (entries.map Prod.fst).Nodup)
    (reads : ∀ entry ∈ entries, ReadsBack depth entry.2) :
    ReadsBack (depth + 1) (.mapping entries) := by
  have text (rest : List Char) : (write (.mapping entries)).toList ++ rest =
      '\x7b' :: ((writeEntries entries).toList ++ '\x7d' :: rest) := by
    simp [write]
  refine .of_step ⟨'\x7b', _, by simpa using text [], rfl, by decide⟩ fun budget rest _ enough => ?_
  rw [text] at enough ⊢
  by_cases empty : entries = []
  · rw [empty]
    exact readValue_emptyObject budget depth rest
  · have inside := readEntries_writeEntries empty reads budget rest
      (by rw [List.length_cons] at enough; omega)
    obtain ⟨tail, begins⟩ := begins_writeEntries empty
    rw [begins, List.cons_append] at inside ⊢
    rw [readValue_object budget depth, inside]
    simp [Except.map, entriesOf_of_nodup distinct]

end

/-! ### Whole documents -/

/-- Each level of the document takes one of the levels that may be opened. -/
theorem readsBack {depth : Nat} (document : Document) (shallow : document.depth ≤ depth)
    (distinct : document.hasDistinctKeys = true) (words : document.hasWords = true) :
    ReadsBack depth document := by
  induction document using Document.induction_on_parts generalizing depth with
  | onNull => exact readsBack_null
  | onBoolean value => exact readsBack_boolean value
  | onText value => exact readsBack_text value
  | onNumber value =>
    cases value with
    | integer n => exact readsBack_integer words
    | real value => simp [Document.hasWords] at words
  | onSequence items ih =>
    rw [Document.hasDistinctKeys, Document.itemsDistinct_iff] at distinct
    rw [Document.hasWords, Document.itemsHaveWords_iff] at words
    rw [Document.depth] at shallow
    obtain ⟨depth, rfl⟩ : ∃ d, depth = d + 1 := ⟨depth - 1, by omega⟩
    have shallow := (Document.itemsDepth_le_iff items depth).mp (by omega)
    exact readsBack_sequence fun item member =>
      ih item member (shallow item member) (distinct item member) (words item member)
  | onMapping entries ih =>
    obtain ⟨distinct, values⟩ := (DistinctKeys.iff entries).mp distinct
    rw [Document.hasWords, Document.valuesHaveWords_iff] at words
    rw [Document.depth] at shallow
    obtain ⟨depth, rfl⟩ : ∃ d, depth = d + 1 := ⟨depth - 1, by omega⟩
    have shallow := (Document.valuesDepth_le_iff entries depth).mp (by omega)
    exact readsBack_mapping distinct fun entry member =>
      ih entry member (shallow entry member) (values entry member) (words entry member)

/-- A document is read back from its whole text, at the end of which a number ends as well. -/
theorem read_write {document : Document} (shallow : document.depth ≤ maxDepth)
    (distinct : document.hasDistinctKeys = true) (words : document.hasWords = true) :
    read (write document) = .ok document := by
  have back := (readsBack document shallow distinct words).reads
    (2 * (write document).toList.length + 2) [] endsNumber_nil (by rw [List.append_nil]; omega)
  rw [List.append_nil] at back
  rw [read, readAll, back]
  rfl

end Json

end SchemaInterfaces
