import SchemaInterfaces.Proofs.Interface.UniqueReading

/-!
# Types read back by their grammar

A written type is read the way a compiler reads it: bars part the members of a union, brackets
behind a member make a list of this member, and a member is a string literal, a word with a meaning
of its own, or a name. Brackets bind tighter than bars and no type is written in parentheses, so a
list of a union with several members is read as a union whose last member is a list
(`exists_list_misread`). Every other type is read as it is (`FieldType.read_text`).
-/
namespace SchemaInterfaces

/-- A type as it is read. -/
inductive TypeTree where
  | keyword (word : String)
  | name (word : String)
  | literal (value : String)
  | list (element : TypeTree)
  | union (members : List TypeTree)

namespace TypeTree

/-- A word or a literal. -/
def ofToken? : Token → Option TypeTree
  | .word text =>
    let word := String.ofList text
    some (if typeWords.contains word then keyword word else name word)
  | .literal written =>
    match Json.readText (written ++ ['"']) with
    | .ok (value, []) => some (literal (String.ofList value))
    | _ => none
  | .mark _ | .unfinished => none

/-- Each pair of brackets behind a type makes a list of it. -/
def inBrackets? (tree : TypeTree) : List Token → Option TypeTree
  | [] => some tree
  | .mark '[' :: .mark ']' :: rest => (list tree).inBrackets? rest
  | _ => none

/-- A member of a union, with the brackets behind it. -/
def member? : List Token → Option TypeTree
  | [] => none
  | token :: brackets => (ofToken? token).bind fun tree => tree.inBrackets? brackets

/-- Several members are a union; a single one is the type itself. -/
def ofMembers : List TypeTree → TypeTree
  | [single] => single
  | members => union members

/-- The type that tokens are read as. -/
def read? (tokens : List Token) : Option TypeTree :=
  ((tokens.splitOn (.mark '|')).mapM member?).map ofMembers

end TypeTree

namespace FieldType

/-- What a type means: a list wherever the type has one, and a union of its values wherever it has
one with several of them. -/
def tree : FieldType → TypeTree
  | primitive .text => .keyword "string"
  | primitive .number => .keyword "number"
  | union [] => .keyword "never"
  | union [value] => .literal value
  | union values => .union (values.map .literal)
  | array element => .list element.tree
  | any => .keyword "any"
  | label name => .name name
  | opaqueObject => .keyword "object"
  | named name => .name name

/-- A type that is written without bars: anything but unions of several values and lists of them. -/
def isOneMember : FieldType → Bool
  | union (_ :: _ :: _) => false
  | array element => element.isOneMember
  | _ => true

/-- Brackets belong to the last member in front of them. -/
def bracketLast : List FieldType → List FieldType
  | [] => []
  | [last] => [array last]
  | member :: rest => member :: bracketLast rest

/-- The members that a type is read as. -/
def members : FieldType → List FieldType
  | union (value :: next :: values) => (value :: next :: values).map fun value => union [value]
  | array element => bracketLast element.members
  | type => [type]

/-! ### The tokens of the members -/

theorem members_of_isOneMember {type : FieldType} (one : type.isOneMember = true) :
    type.members = [type] := by
  induction type with
  | union values =>
    match values with
    | [] | [_] => rfl
    | _ :: _ :: _ => cases one
  | array element ih => rw [members, ih one, bracketLast]
  | primitive kind => rfl
  | any => rfl
  | label name => rfl
  | opaqueObject => rfl
  | named name => rfl

/-- What holds of members and of lists of what it holds of, holds with brackets behind the last. -/
theorem forall_mem_bracketLast {p : FieldType → Prop} (lists : ∀ type, p type → p (array type))
    {types : List FieldType} (each : ∀ type ∈ types, p type) :
    ∀ type ∈ bracketLast types, p type := by
  fun_induction bracketLast types with
  | case1 => exact each
  | case2 last =>
    rw [List.forall_mem_singleton] at each ⊢
    exact lists last each
  | case3 first rest _ ih =>
    obtain ⟨head, tail⟩ := List.forall_mem_cons.mp each
    exact List.forall_mem_cons.mpr ⟨head, ih tail⟩

theorem isOneMember_of_mem_members (type : FieldType) :
    ∀ member ∈ type.members, member.isOneMember = true := by
  fun_induction members type with
  | case1 value next values => simp [isOneMember]
  | case2 element ih => exact forall_mem_bracketLast (fun _ one => one) ih
  | case3 type several isArray =>
    rw [List.forall_mem_singleton]
    unfold isOneMember
    split
    · exact absurd rfl (several _ _ _)
    · exact absurd rfl (isArray _)
    · rfl

theorem names_subset_of_mem_members (type : FieldType) :
    ∀ member ∈ type.members, member.names ⊆ type.names := by
  fun_induction members type with
  | case1 value next values => simp [names]
  | case2 element ih =>
    exact forall_mem_bracketLast (fun _ subset => subset) ih
  | case3 type => simp

theorem bracketLast_ne_nil {types : List FieldType} (nonempty : types ≠ []) :
    bracketLast types ≠ [] := by
  fun_cases bracketLast types <;> simp_all

theorem members_ne_nil (type : FieldType) : type.members ≠ [] := by
  fun_induction members type with
  | case1 => simp
  | case2 element ih => exact bracketLast_ne_nil ih
  | case3 => simp

/-- A type is written as its members with bars between them. -/
theorem intercalate_bracketLast {types : List FieldType} (nonempty : types ≠ []) :
    [Token.mark '|'].intercalate ((bracketLast types).map tokens) =
      [Token.mark '|'].intercalate (types.map tokens) ++ [.mark '[', .mark ']'] := by
  fun_induction bracketLast types with
  | case1 => exact absurd rfl nonempty
  | case2 last => simp [tokens]
  | case3 first rest several ih =>
    have more : rest ≠ [] := fun none => several (by rw [none])
    have left : (bracketLast rest).map tokens ≠ [] := by simpa using bracketLast_ne_nil more
    have right : rest.map tokens ≠ [] := by simpa using more
    rw [List.map_cons, List.map_cons, List.intercalate_cons_of_ne_nil left,
      List.intercalate_cons_of_ne_nil right, ih more, List.append_assoc _ _ [_, _]]

theorem unionTokens_eq_intercalate {values : List String} (nonempty : values ≠ []) :
    unionTokens values =
      [Token.mark '|'].intercalate (values.map fun value => [literalToken value]) := by
  fun_induction unionTokens values with
  | case1 => exact absurd rfl nonempty
  | case2 value => simp
  | case3 value rest several ih =>
    have more : rest ≠ [] := fun none => several (by rw [none])
    have others : (rest.map fun value => [literalToken value]) ≠ [] := by simpa using more
    rw [ih more, List.map_cons, List.intercalate_cons_of_ne_nil others]
    rfl

theorem tokens_eq_intercalate (type : FieldType) :
    type.tokens = [Token.mark '|'].intercalate (type.members.map tokens) := by
  fun_induction members type with
  | case1 value next values =>
    rw [tokens, unionTokens_eq_intercalate (List.cons_ne_nil _ _), List.map_map]
    rfl
  | case2 element ih => rw [tokens, ih, intercalate_bracketLast (members_ne_nil element)]
  | case3 => simp

theorem bar_not_mem_tokens {type : FieldType} (one : type.isOneMember = true) :
    Token.mark '|' ∉ type.tokens := by
  induction type with
  | union values =>
    match values with
    | [] | [_] => simp [tokens, unionTokens, literalToken]
    | _ :: _ :: _ => cases one
  | array element ih => simpa [tokens] using ih one
  | primitive kind => cases kind <;> simp [tokens]
  | any => simp [tokens]
  | label name => simp [tokens]
  | opaqueObject => simp [tokens]
  | named name => simp [tokens]

/-! ### Reading the members -/

theorem ofToken?_literalToken (value : String) :
    TypeTree.ofToken? (literalToken value) = some (.literal value) := by
  simp only [literalToken, TypeTree.ofToken?]
  rw [Json.readText_flatMap_escape]
  simp

theorem ofToken?_name {name : String} (h : isTypeName name = true) :
    TypeTree.ofToken? (.word name.toList) = some (.name name) := by
  have free : typeWords.contains name = false := by
    rw [isTypeName, Bool.and_eq_true, Bool.not_eq_true'] at h
    exact h.2
  simp only [TypeTree.ofToken?, String.ofList_toList, free]
  rfl

theorem inBrackets?_append (tree : TypeTree) (brackets : List Token) :
    tree.inBrackets? (brackets ++ [.mark '[', .mark ']']) =
      (tree.inBrackets? brackets).map .list := by
  fun_induction TypeTree.inBrackets? tree brackets with
  | case1 tree => rfl
  | case2 tree rest ih => exact ih
  | case3 brackets tree nonempty noPair =>
    match brackets with
    | [] => exact absurd rfl nonempty
    | [a] => simp [TypeTree.inBrackets?]
    | a :: b :: rest =>
      rw [List.cons_append, List.cons_append, TypeTree.inBrackets?]
      · rfl
      · simp
      · exact fun more same => noPair rest (by simp_all)

theorem member?_append {front : List Token} (nonempty : front ≠ []) :
    TypeTree.member? (front ++ [.mark '[', .mark ']']) =
      (TypeTree.member? front).map .list := by
  cases front with
  | nil => exact absurd rfl nonempty
  | cons token brackets =>
    rw [List.cons_append, TypeTree.member?, TypeTree.member?]
    cases TypeTree.ofToken? token with
    | none => rfl
    | some tree => exact inBrackets?_append tree brackets

/-- A member is read as what it means. -/
theorem member?_tokens {type : FieldType} (one : type.isOneMember = true)
    (names : ∀ name ∈ type.names, isTypeName name = true) :
    TypeTree.member? type.tokens = some type.tree := by
  have name (word : String) (h : isTypeName word = true) :
      TypeTree.member? [.word word.toList] = some (.name word) := by
    rw [TypeTree.member?, ofToken?_name h]
    rfl
  induction type with
  | union values =>
    match values with
    | [] => rfl
    | [value] =>
      rw [tokens, unionTokens, TypeTree.member?, ofToken?_literalToken]
      rfl
    | _ :: _ :: _ => cases one
  | array element ih =>
    have nonempty : element.tokens ≠ [] := by
      rintro none
      have read := ih one names
      rw [none] at read
      cases read
    rw [tokens, member?_append nonempty, ih one names]
    rfl
  | primitive kind => cases kind <;> rfl
  | any => rfl
  | label word => exact name word (names word (.head _))
  | opaqueObject => rfl
  | named word => exact name word (names word (.head _))

theorem mapM_member? {types : List FieldType}
    (each : ∀ type ∈ types, TypeTree.member? type.tokens = some type.tree) :
    (types.map tokens).mapM TypeTree.member? = some (types.map tree) := by
  induction types with
  | nil => rfl
  | cons type types ih =>
    obtain ⟨first, rest⟩ := List.forall_mem_cons.mp each
    rw [List.map_cons, List.mapM_cons, first, ih rest]
    rfl

/-- The members of a type are read one by one. -/
theorem read?_tokens (type : FieldType) (names : ∀ name ∈ type.names, isTypeName name = true) :
    TypeTree.read? type.tokens = some (.ofMembers (type.members.map tree)) := by
  have one := isOneMember_of_mem_members type
  have parts : type.tokens.splitOn (.mark '|') = type.members.map tokens := by
    rw [tokens_eq_intercalate]
    refine List.splitOn_intercalate _ (fun part listed => ?_) (by simpa using members_ne_nil type)
    obtain ⟨member, inside, rfl⟩ := List.mem_map.mp listed
    exact bar_not_mem_tokens (one member inside)
  have read := mapM_member? fun member inside => member?_tokens (one member inside)
    fun name known => names name (names_subset_of_mem_members type member inside known)
  rw [TypeTree.read?, parts, read]
  rfl

/-! ### Types that are read as they are -/

theorem length_bracketLast (types : List FieldType) :
    (bracketLast types).length = types.length := by
  fun_induction bracketLast types <;> simp_all

theorem two_le_length_members {type : FieldType} (several : type.isOneMember = false) :
    2 ≤ type.members.length := by
  induction type with
  | union values =>
    match values with
    | [] | [_] => cases several
    | _ :: _ :: _ => simp [members]
  | array element ih =>
    rw [members, length_bracketLast]
    exact ih several
  | primitive kind => cases several
  | any => cases several
  | label name => cases several
  | opaqueObject => cases several
  | named name => cases several

theorem ofMembers_ne_list {members : List TypeTree} (several : 2 ≤ members.length)
    (element : TypeTree) : TypeTree.ofMembers members ≠ .list element := by
  match members, several with
  | first :: second :: rest, _ => simp [TypeTree.ofMembers]

/-- Reading the members gives the meaning of a type, unless the type is a list of what is written
with bars. -/
theorem ofMembers_eq_tree_iff (type : FieldType) :
    TypeTree.ofMembers (type.members.map tree) = type.tree ↔
      ∀ element, type = array element → element.isOneMember = true := by
  cases type with
  | union values =>
    match values with
    | [] | [_] => simp [members, tree, TypeTree.ofMembers]
    | _ :: _ :: _ => simp [members, tree, TypeTree.ofMembers]
  | array element =>
    constructor
    · rintro same _ ⟨rfl⟩
      by_contra several
      have bars : (array element).isOneMember = false := Bool.not_eq_true _ ▸ several
      refine ofMembers_ne_list ?_ element.tree same
      rw [List.length_map]
      exact two_le_length_members bars
    · intro one
      have whole : (array element).isOneMember = true := one element rfl
      rw [members_of_isOneMember whole]
      rfl
  | primitive kind => simp [members, TypeTree.ofMembers]
  | any => simp [members, TypeTree.ofMembers]
  | label name => simp [members, TypeTree.ofMembers]
  | opaqueObject => simp [members, TypeTree.ofMembers]
  | named name => simp [members, TypeTree.ofMembers]

/-- A written type is read as its members, brackets bound to the last of them. This is what the type
means, unless it is a list and its innermost element a union of several values. -/
theorem read_text (type : FieldType) (names : ∀ name ∈ type.names, isTypeName name = true) :
    TypeTree.read? (SchemaInterfaces.tokens type.text.toList) =
        some (.ofMembers (type.members.map tree)) ∧
      (TypeTree.read? (SchemaInterfaces.tokens type.text.toList) = some type.tree ↔
        ∀ element, type = array element → element.isOneMember = true) := by
  have scanned : SchemaInterfaces.tokens type.text.toList = type.tokens := by
    have words := fun name member => isWord_of_isTypeName (names name member)
    have ends : EndsWord [] := by simp [EndsWord]
    simpa [SchemaInterfaces.tokens, Scanner.run, Scanner.finish] using
      tokens_typeText type words ends
  rw [scanned, read?_tokens type names]
  exact ⟨rfl, by rw [Option.some.injEq, ofMembers_eq_tree_iff]⟩

/-- Values that look like types, in lists of lists and in a union. -/
theorem read_text_disguised :
    TypeTree.read? (SchemaInterfaces.tokens
        (array (array (union ["a\" | \"b[]"]))).text.toList) =
      some (.list (.list (.literal "a\" | \"b[]"))) ∧
    TypeTree.read? (SchemaInterfaces.tokens (union ["a", "[]", "a"]).text.toList) =
      some (.union [.literal "a", .literal "[]", .literal "a"]) ∧
    TypeTree.read? (SchemaInterfaces.tokens (array (label "boolean")).text.toList) =
      some (.list (.name "boolean")) := by
  refine ⟨(read_text _ ?_).2.mpr ?_, (read_text _ ?_).2.mpr ?_, (read_text _ ?_).2.mpr ?_⟩
  all_goals simp [names, isOneMember]
  decide

/-- Brackets behind a union belong to its last value, so this list is not read as one. -/
theorem exists_list_misread :
    ¬ ∀ type : FieldType, (∀ name ∈ type.names, isTypeName name = true) →
      TypeTree.read? (SchemaInterfaces.tokens type.text.toList) = some type.tree := by
  intro always
  have misread : TypeTree.read?
      (SchemaInterfaces.tokens (array (union ["a", "b"])).text.toList) =
        some (.union [.literal "a", .list (.literal "b")]) :=
    (read_text _ (by simp [names])).1
  rw [always _ (by simp [names])] at misread
  cases misread

end FieldType

end SchemaInterfaces
