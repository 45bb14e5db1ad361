import Mathlib.Data.Bool.AllAny
import SchemaInterfaces.Proofs.Interface.Identifier
import SchemaInterfaces.Proofs.Interface.References
import SchemaInterfaces.Proofs.NameCollision
import SchemaInterfaces.Proofs.Text.Capital

/-!
# Names that are identifiers

A name is never checked, and the underscores that make an identifier of a key such as `_0th` are not
in it. Put together from characters of identifiers, it is an identifier exactly when it has a first
piece that does not begin with a digit. A key that begins with a letter or `$` has such a piece, so
where this holds for the keys of all objects every name in the generated code is an identifier
(`interfaceName_isIdentifier`).
-/
namespace SchemaInterfaces

namespace KeyPath

/-! ### Pieces of keys -/

/-- The pieces of keys have no other characters than the keys. -/
theorem mem_of_mem_pieces {keys : List String} {chars piece : List Char}
    (known : ∀ key ∈ keys, ∀ c ∈ key.toList, c ∈ chars) (member : piece ∈ pieces keys) :
    ∀ c ∈ piece, c ∈ chars := by
  rw [← fragments_eq_pieces, fragments] at member
  obtain ⟨key, listed, ofKey⟩ := List.mem_flatMap.mp member
  intro c inside
  exact known key listed c (mem_of_mem_splitUnderscore (List.mem_filter.mp ofKey).1 c inside).1

theorem ne_nil_of_mem_pieces {keys : List String} {piece : List Char}
    (member : piece ∈ pieces keys) : piece ≠ [] := by
  obtain ⟨key, _, ofKey⟩ := List.mem_flatMap.mp member
  simpa using (List.mem_filter.mp ofKey).2

/-- A character that is no underscore begins the first piece. -/
theorem head?_pieces_of_ne {key : String} {c : Char} {rest : List Char}
    (begins : key.toList = c :: rest) (plain : c ≠ '_') (keys : List String) :
    ∃ more, (pieces (key :: keys)).head? = some (c :: more) := by
  have first : ∃ more others, splitUnderscore (c :: rest) = (c :: more) :: others := by
    rw [splitUnderscore, if_neg plain]
    cases splitUnderscore rest with
    | nil => exact ⟨[], [], rfl⟩
    | cons piece pieces => exact ⟨piece, pieces, rfl⟩
  obtain ⟨more, others, split⟩ := first
  refine ⟨more, ?_⟩
  rw [← fragments_eq_pieces, fragments_cons, begins, fragmentsOf, split]
  simp

/-! ### The name of a path -/

/-- A character of identifiers may begin one unless it is a digit. -/
theorem mem_first_iff {c : Char} (known : c ∈ identifierChars) :
    c ∈ letters ++ ['_', '$'] ↔ c ∉ digits := by
  have all : ∀ c ∈ identifierChars, (c ∈ letters ++ ['_', '$'] ↔ c ∉ digits) :=
    List.all_iff_forall_prop.mp (by decide +kernel)
  exact all c known

/-- In upper case a character of identifiers is one again, and a digit only if it was one. -/
theorem uppercase_of_mem {c : Char} (known : c ∈ identifierChars) :
    ∃ d, Text.uppercase c = [d] ∧ d ∈ identifierChars ∧ (d ∈ digits ↔ c ∈ digits) := by
  have kinds : ∀ c ∈ identifierChars, c ∈ charRange 'a' 'z' ∨ c.toNat < 'a'.toNat :=
    List.all_iff_forall_prop.mp (by decide +kernel)
  have capitals : ∀ c ∈ charRange 'a' 'z',
      Text.uppercase c = [.ofNat (c.toNat - 0x20)] ∧
        Char.ofNat (c.toNat - 0x20) ∈ identifierChars ∧
          (Char.ofNat (c.toNat - 0x20) ∈ digits ↔ c ∈ digits) :=
    List.all_iff_forall_prop.mp (by decide +kernel)
  rcases kinds c known with small | below
  · exact ⟨_, capitals c small⟩
  · exact ⟨c, Text.uppercase_of_lt below, known, Iff.rfl⟩

theorem upperFirst_of_chars {piece : List Char} (nonempty : piece ≠ [])
    (known : ∀ c ∈ piece, c ∈ identifierChars) :
    ∃ c d rest, piece = c :: rest ∧ upperFirst piece = d :: rest ∧
      (∀ e ∈ d :: rest, e ∈ identifierChars) ∧ (d ∈ digits ↔ c ∈ digits) := by
  cases piece with
  | nil => exact absurd rfl nonempty
  | cons c rest =>
    obtain ⟨inFirst, inRest⟩ := List.forall_mem_cons.mp known
    obtain ⟨d, upper, char, digit⟩ := uppercase_of_mem inFirst
    refine ⟨c, d, rest, rfl, ?_, List.forall_mem_cons.mpr ⟨char, inRest⟩, digit⟩
    rw [upperFirst, upper]
    rfl

theorem mem_of_mem_flatMap_upperFirst {pieces : List (List Char)}
    (nonempty : ∀ piece ∈ pieces, piece ≠ [])
    (known : ∀ piece ∈ pieces, ∀ c ∈ piece, c ∈ identifierChars) :
    ∀ c ∈ pieces.flatMap upperFirst, c ∈ identifierChars := by
  intro c member
  obtain ⟨piece, listed, inside⟩ := List.mem_flatMap.mp member
  obtain ⟨_, _, _, _, written, chars, _⟩ :=
    upperFirst_of_chars (nonempty piece listed) (known piece listed)
  rw [written] at inside
  exact chars c inside

/-- A name put together from characters of identifiers is an identifier just when it has a first
piece and this does not begin with a digit. -/
theorem nameOf_mem_iff {keys : List String}
    (known : ∀ key ∈ keys, ∀ c ∈ key.toList, c ∈ identifierChars) :
    (nameOf keys).toList ∈ identifierPattern.matches' ↔
      ∃ first rest, (pieces keys).head? = some (first :: rest) ∧ first ∉ digits := by
  have nonempty := fun piece (member : piece ∈ pieces keys) => ne_nil_of_mem_pieces member
  have chars := fun piece (member : piece ∈ pieces keys) => mem_of_mem_pieces known member
  rw [nameOf, String.toList_ofList, fragments_eq_pieces, identifierPattern, mem_wordPattern]
  cases parts : pieces keys with
  | nil => simp
  | cons piece others =>
    rw [parts] at nonempty chars
    obtain ⟨c, d, rest, rfl, written, inPiece, digit⟩ :=
      upperFirst_of_chars (nonempty _ (.head _)) (chars _ (.head _))
    have start : d ∈ letters ++ ['_', '$'] ↔ c ∉ digits :=
      (mem_first_iff (inPiece d (.head _))).trans (not_congr digit)
    have behind := mem_of_mem_flatMap_upperFirst (fun p member => nonempty p (.tail _ member))
      (fun p member => chars p (.tail _ member))
    rw [List.flatMap_cons, written, List.cons_append, List.head?_cons]
    constructor
    · rintro ⟨_, _, ⟨⟩, begins, _⟩
      exact ⟨c, rest, rfl, start.mp begins⟩
    · rintro ⟨_, _, ⟨⟩, noDigit⟩
      refine ⟨d, _, rfl, start.mpr noDigit, fun e member => ?_⟩
      rcases List.mem_append.mp member with inRest | later
      · exact inPiece e (.tail _ inRest)
      · exact behind e later

/-- The pattern `[A-Za-z$][A-Za-z0-9_$]*`. -/
def keyPattern : RegularExpression Char := wordPattern (letters ++ ['$']) identifierChars

/-- Plain keys are of this pattern. -/
theorem mem_keyPattern_of_isPlainKey {key : String} (plain : isPlainKey key = true) :
    key.toList ∈ keyPattern.matches' := by
  have small (c : Char) (lower : c.isLower = true) : c ∈ letters :=
    (isAlpha_iff c).mp ((Bool.or_eq_true _ _).mpr (.inr lower))
  rw [isPlainKey] at plain
  cases word : key.toList with
  | nil =>
    rw [word] at plain
    cases plain
  | cons c rest =>
    rw [word, isPlainFragment, Bool.and_eq_true, List.all_eq_true] at plain
    refine (mem_wordPattern _ _ _).mpr ⟨c, rest, rfl, ?_, fun d member => ?_⟩
    · exact List.mem_append_left _ (small c plain.1)
    · refine List.mem_append_left _ (List.mem_append.mpr ?_)
      rcases Bool.or_eq_true _ _ ▸ plain.2 d member with lower | digit
      · exact .inl (small d lower)
      · exact .inr ((isDigit_iff d).mp digit)

/-- A first key of this pattern makes its name an identifier. -/
theorem nameOf_mem_of_keyPattern {key : String} {keys : List String}
    (keyed : ∀ k ∈ key :: keys, k.toList ∈ keyPattern.matches') :
    (nameOf (key :: keys)).toList ∈ identifierPattern.matches' := by
  have starts : ∀ c ∈ letters ++ ['$'], c ∉ digits ∧ c ≠ '_' ∧ c ∈ identifierChars :=
    List.all_iff_forall_prop.mp (by decide +kernel)
  have known : ∀ k ∈ key :: keys, ∀ c ∈ k.toList, c ∈ identifierChars := by
    intro k member c inside
    obtain ⟨first, rest, word, start, others⟩ := (mem_wordPattern _ _ _).mp (keyed k member)
    rw [word] at inside
    rcases List.mem_cons.mp inside with rfl | later
    · exact (starts c start).2.2
    · exact others c later
  obtain ⟨first, rest, word, start, _⟩ := (mem_wordPattern _ _ _).mp (keyed key (.head _))
  obtain ⟨noDigit, plain, _⟩ := starts first start
  obtain ⟨more, head⟩ := head?_pieces_of_ne word plain keys
  exact (nameOf_mem_iff known).mpr ⟨first, more, head, noDigit⟩

end KeyPath

/-! ### The names in the generated code -/

/-- What a statement declares, and all that its fields refer to. -/
def Statement.interfaceNames (statement : Statement) : List String :=
  statement.declaredName?.toList ++ statement.fields.flatMap (·.type.references)

/-- Every such name is that of a path that expands. -/
theorem exists_path_of_interfaceNames {entries : List (String × Document)}
    (distinct : DistinctKeys entries) {statement : Statement}
    (member : statement ∈ Hoisted.statements entries) {name : String}
    (named : name ∈ statement.interfaceNames) :
    ∃ path, Expands entries path ∧ name = KeyPath.nameOf path := by
  obtain ⟨i, hs⟩ := List.mem_iff_getElem?.mp member
  obtain ⟨path, _, stands⟩ := (accounts_originPaths distinct).exists_path hs
  rcases List.mem_append.mp named with declared | referred
  · refine ⟨path, expands_of_declaredName ?_⟩
    rw [stands]
    exact Option.mem_toList.mp declared
  · obtain ⟨field, inFields, refers⟩ := List.mem_flatMap.mp referred
    cases statement with
    | field item =>
      obtain rfl := List.mem_singleton.mp inFields
      rw [statementAt?_eq_field stands] at refers
      cases refers
    | interface declared =>
      obtain ⟨definition, found, _, rfl⟩ := statementAt?_eq_interface stands
      obtain ⟨property, inner, expands, same⟩ :=
        expands_of_reference distinct found inFields refers
      exact ⟨_, (expands_iff entries _).mpr ⟨property, inner, expands⟩, same⟩

/-- The name of a path of identifier characters is an identifier exactly when the path has a piece
between underscores and the first of them does not begin with a digit. Where the keys of all objects
begin with a letter or `$`, all names in the generated code are identifiers. -/
theorem interfaceName_isIdentifier :
    (∀ path : KeyPath, (∀ key ∈ path.keys, ∀ c ∈ key.toList, c ∈ identifierChars) →
      (path.interfaceName.toList ∈ identifierPattern.matches' ↔
        ∃ first rest, (KeyPath.pieces path.keys).head? = some (first :: rest) ∧
          first ∉ digits)) ∧
    ∀ entries : List (String × Document), DistinctKeys entries →
      (∀ path, Expands entries path → ∀ key ∈ path, key.toList ∈ KeyPath.keyPattern.matches') →
      ∀ statement ∈ Hoisted.statements entries, ∀ name ∈ statement.interfaceNames,
        name.toList ∈ identifierPattern.matches' := by
  refine ⟨fun path known => KeyPath.nameOf_mem_iff known, ?_⟩
  intro entries distinct keyed statement member name named
  obtain ⟨path, expands, rfl⟩ := exists_path_of_interfaceNames distinct member named
  cases path with
  | nil => exact absurd rfl expands.1
  | cons key keys => exact KeyPath.nameOf_mem_of_keyPattern (keyed _ expands)

/-- Without the underscore in front a digit begins the name; where `$` comes first nothing is lost.
In a schema with plain keys the name of an interface and the one that its field refers to are
identifiers. -/
theorem interfaceName_isIdentifier_plain :
    (KeyPath.mk ["_0th"]).interfaceName.toList ∉ identifierPattern.matches' ∧
    (KeyPath.mk ["__", "_$a_1", "2b"]).interfaceName.toList ∈ identifierPattern.matches' ∧
    PlainlyKeyed plainSchema ∧
    (Statement.interface plainReferrer).interfaceNames = ["Contexta", "ContextaB1"] ∧
    ∀ name ∈ ["Contexta", "ContextaB1"], name.toList ∈ identifierPattern.matches' := by
  obtain ⟨path, schema⟩ := interfaceName_isIdentifier
  have checked : isPlainlyKeyed 3 plainSchema = true := by decide
  have keyed := plainlyKeyed_of_isPlainlyKeyed checked
  have known (keys : List String)
      (checked : ∀ key ∈ keys, key.toList.all (· ∈ identifierChars) = true) :
      ∀ key ∈ keys, ∀ c ∈ key.toList, c ∈ identifierChars :=
    fun key listed => List.all_iff_forall_prop.mp (checked key listed)
  refine ⟨?_, (path _ (known _ (by decide))).mpr ⟨'$', ['a'], rfl, by decide⟩, keyed, rfl,
    schema plainSchema (by decide) (fun path expands key member => ?_) _
      (List.mem_of_getElem? statements_plainSchema)⟩
  · rw [path _ (known _ (by decide))]
    rintro ⟨first, rest, begins, noDigit⟩
    have head : (KeyPath.pieces ["_0th"]).head? = some ['0', 't', 'h'] := by decide
    obtain ⟨rfl, rfl⟩ := List.cons.inj (Option.some.inj (head.symm.trans begins))
    exact noDigit (by decide)
  · exact KeyPath.mem_keyPattern_of_isPlainKey (keyed path expands key member)

end SchemaInterfaces
