import Mathlib.Data.List.Basic
import Mathlib.Data.Set.Card
import SchemaInterfaces.Proofs.Generation
import SchemaInterfaces.Proofs.Interface.Hoisting
import SchemaInterfaces.Proofs.Schema.KeyWalk

/-!
# Where statements come from

Every statement stands for one path of keys: an interface for a path that expands, a field for a
root entry that stands alone. `StandsFor` says by key look-up what the statement of a path has to
be, and `Accounts` that a list of paths covers the statements one by one. The list is found by
walking the schema in the order of hoisting (`originPaths`); that it is ordered by `Precedes` is the
invariant from which distinctness of the paths follows.
-/
namespace SchemaInterfaces

/-- What stands for a path of keys in the generated code: the interface of the definition at the
path if it expands, and a field for any other definition of a root entry. -/
inductive StandsFor (entries : List (String × Document)) : List String → Statement → Prop where
  | interface {path : List String} {definition : Document} {declared : Interface}
      (found : definitionAt? entries path = some definition)
      (expands : definition.isExpanding = true)
      (isInterface : Hoisted.IsInterfaceOf path definition declared) :
      StandsFor entries path (.interface declared)
  | field {key : String} {definition : Document} {item : Field}
      (found : entries.lookup key = some definition) (alone : definition.isExpanding = false)
      (isField : Hoisted.IsFieldOf [] (key, definition) item) :
      StandsFor entries [key] (.field item)

/-- A list of paths that accounts for the generated statements: it names no path twice, names
exactly the paths that expand and the root entries that stand alone, and each statement stands for
the path in its place. -/
structure Accounts (entries : List (String × Document)) (paths : List (List String)) : Prop where
  nodup : paths.Nodup
  complete : ∀ path, path ∈ paths ↔
    Expands entries path ∨ ∃ key, path = [key] ∧ StandsAlone entries key
  statements : List.Forall₂ (StandsFor entries) paths (Hoisted.statements entries)

/-- The statement of a path, if it has one. -/
def statementAt? (entries : List (String × Document)) (path : List String) : Option Statement :=
  match definitionAt? entries path with
  | none => none
  | some definition =>
    if definition.isExpanding then some (.interface (Hoisted.interfaceOf path definition))
    else
      match path with
      | [key] => some (.field (Hoisted.fieldOf [] (key, definition)))
      | _ => none

theorem standsFor_iff (entries : List (String × Document)) (path : List String)
    (statement : Statement) :
    StandsFor entries path statement ↔ statementAt? entries path = some statement := by
  constructor
  · rintro (⟨found, expands, isInterface⟩ | ⟨found, alone, isField⟩)
    · rw [(Hoisted.isInterfaceOf_iff _ _ _).mp isInterface]
      simp [statementAt?, found, expands]
    · rw [(Hoisted.isFieldOf_iff _ _ _).mp isField]
      simp [statementAt?, definitionAt?, found, alone]
  · intro h
    unfold statementAt? at h
    split at h
    next => cases h
    next definition found =>
      split at h
      next expands =>
        cases h
        exact .interface found expands ((Hoisted.isInterfaceOf_iff _ _ _).mpr rfl)
      next leaf =>
        split at h
        next key =>
          cases h
          exact .field found (Bool.eq_false_iff.mpr leaf) ((Hoisted.isFieldOf_iff _ _ _).mpr rfl)
        next => cases h

/-! ### The walk -/

/-- What a walk finds below each entry, every path with the key of the entry in front. -/
def underKeys (walk : Document → List (List String × Document))
    (entries : List (String × Document)) : List (List String × Document) :=
  entries.flatMap fun entry => (walk entry.2).map fun found => (entry.1 :: found.1, found.2)

/-- The definitions that expand from one definition down, each with its path from there, in the
order of their interfaces. -/
def expansions (definition : Document) : List (List String × Document) :=
  (definition.properties.attach.flatMap fun ⟨entry, _⟩ =>
    (expansions entry.2).map fun found => (entry.1 :: found.1, found.2)) ++
  if definition.isExpanding then [([], definition)] else []
termination_by sizeOf definition
decreasing_by exact Document.sizeOf_lt_of_mem_properties ‹_›

/-- The definitions that the statements of a root entry come from. -/
def origins (definition : Document) : List (List String × Document) :=
  underKeys expansions definition.properties ++ [([], definition)]

/-- The paths of all statements in the order of the statements. -/
def originPaths (entries : List (String × Document)) : List (List String) :=
  (underKeys origins entries).map Prod.fst

theorem expansions_eq (definition : Document) :
    expansions definition = if definition.isExpanding then origins definition else [] := by
  have unattached : (definition.properties.attach.flatMap fun ⟨entry, _⟩ =>
      (expansions entry.2).map fun found => (entry.1 :: found.1, found.2)) =
      underKeys expansions definition.properties := by
    rw [List.flatMap_subtype fun _ _ => rfl, List.unattach_attach, underKeys]
  rw [expansions, unattached]
  cases h : definition.isExpanding with
  | false => simp [underKeys, Document.properties_eq_nil definition h]
  | true => simp [origins]

theorem mem_underKeys_cons (walk : Document → List (List String × Document))
    (entries : List (String × Document)) (key : String) (rest : List String)
    (definition : Document) :
    (key :: rest, definition) ∈ underKeys walk entries ↔
      ∃ inner, (key, inner) ∈ entries ∧ (rest, definition) ∈ walk inner := by
  simp only [underKeys, List.mem_flatMap, List.mem_map]
  constructor
  · rintro ⟨⟨key, inner⟩, member, ⟨rest, found⟩, inWalk, same⟩
    cases same
    exact ⟨inner, member, inWalk⟩
  · rintro ⟨inner, member, inWalk⟩
    exact ⟨(key, inner), member, (rest, definition), inWalk, rfl⟩

theorem nil_not_mem_underKeys (walk : Document → List (List String × Document))
    (entries : List (String × Document)) (definition : Document) :
    ([], definition) ∉ underKeys walk entries := by
  simp [underKeys]

theorem mem_expansions (inner : Document) (path : List String) (definition : Document) :
    (path, definition) ∈ expansions inner ↔
      (path, definition) ∈ underKeys expansions inner.properties ∨
        (path = [] ∧ definition = inner ∧ inner.isExpanding = true) := by
  rw [expansions_eq]
  cases h : inner.isExpanding with
  | false => simp [underKeys, Document.properties_eq_nil inner h]
  | true => simp [origins]

/-- What the walk finds below one entry is what key look-up finds there, if this is so among the
properties of that entry. -/
theorem exists_below_iff {entries : List (String × Document)} (distinct : DistinctKeys entries)
    {key : String} {rest : List String} (hr : rest ≠ []) (definition : Document)
    (inside : ∀ inner, (key, inner) ∈ entries →
      ((rest, definition) ∈ underKeys expansions inner.properties ↔
        definitionAt? inner.properties rest = some definition ∧
          definition.isExpanding = true)) :
    (∃ inner, (key, inner) ∈ entries ∧
      (rest, definition) ∈ underKeys expansions inner.properties) ↔
      definitionAt? entries (key :: rest) = some definition ∧ definition.isExpanding = true := by
  simp only [definitionAt?_cons _ _ _ hr, Option.bind_eq_some_iff, distinct.lookup_eq_some_iff]
  constructor
  · rintro ⟨inner, member, below⟩
    obtain ⟨hd, he⟩ := (inside inner member).mp below
    exact ⟨⟨inner, member, hd⟩, he⟩
  · rintro ⟨⟨inner, member, hd⟩, he⟩
    exact ⟨inner, member, (inside inner member).mpr ⟨hd, he⟩⟩

/-- Below the entries the walk finds just what key look-up finds. -/
theorem mem_underKeys_expansions {entries : List (String × Document)}
    (distinct : DistinctKeys entries) (path : List String) (definition : Document) :
    (path, definition) ∈ underKeys expansions entries ↔
      definitionAt? entries path = some definition ∧ definition.isExpanding = true := by
  induction path generalizing entries with
  | nil => simp [nil_not_mem_underKeys, definitionAt?]
  | cons key rest ih =>
    rw [mem_underKeys_cons]
    by_cases hr : rest = []
    · subst hr
      simp only [mem_expansions, nil_not_mem_underKeys, definitionAt?,
        distinct.lookup_eq_some_iff, true_and, false_or]
      constructor
      · rintro ⟨inner, member, rfl, he⟩
        exact ⟨member, he⟩
      · rintro ⟨member, he⟩
        exact ⟨definition, member, rfl, he⟩
    · simp only [mem_expansions, hr, false_and, or_false]
      refine exists_below_iff distinct hr definition fun inner member => ?_
      exact ih (DistinctKeys.properties (distinct.of_mem member))

/-- The statements come from the definitions that expand and from the root entries. -/
theorem mem_underKeys_origins {entries : List (String × Document)}
    (distinct : DistinctKeys entries) (path : List String) (definition : Document) :
    (path, definition) ∈ underKeys origins entries ↔
      definitionAt? entries path = some definition ∧
        (definition.isExpanding = true ∨ path.length = 1) := by
  cases path with
  | nil => simp [nil_not_mem_underKeys, definitionAt?]
  | cons key rest =>
    rw [mem_underKeys_cons]
    simp only [origins, List.mem_append, List.mem_singleton, Prod.mk.injEq]
    by_cases hr : rest = []
    · subst hr
      simp [nil_not_mem_underKeys, definitionAt?, distinct.lookup_eq_some_iff]
    · have long : ¬ (key :: rest).length = 1 := by simpa using hr
      simp only [hr, false_and, or_false, long]
      refine exists_below_iff distinct hr definition fun inner member => ?_
      exact mem_underKeys_expansions (DistinctKeys.properties (distinct.of_mem member)) _ _

/-! ### From paths to statements -/

/-- The interfaces of a definition are those of the definitions that expand below it. -/
theorem interfaces_eq_map_expansions (path : KeyPath) (definition : Document) :
    (Hoisted.ofDefinition path (.ofDocument definition)).interfaces =
      (expansions definition).map fun found =>
        Hoisted.interfaceOf (path.keys ++ found.1) found.2 := by
  induction definition using Document.induction_on_properties generalizing path with
  | step definition ih =>
    rw [expansions_eq]
    cases h : definition.isExpanding with
    | false => simp [Hoisted.interfaces_of_not_isExpanding path definition h]
    | true =>
      rw [Hoisted.interfaces_of_isExpanding path definition h]
      simp only [if_true, origins, underKeys, List.map_append, List.map_flatMap, List.map_map,
        List.map_singleton, List.append_nil]
      congr 1
      apply List.flatMap_congr
      intro entry member
      rw [ih entry member]
      simp [KeyPath.child]

theorem statementAt?_of_isExpanding {entries : List (String × Document)} {path : List String}
    {definition : Document} (hd : definitionAt? entries path = some definition)
    (he : definition.isExpanding = true) :
    statementAt? entries path = some (.interface (Hoisted.interfaceOf path definition)) := by
  simp [statementAt?, hd, he]

/-- The statements of one entry are what the paths from that entry on stand for. -/
theorem statementsOf_eq_map_origins {entries : List (String × Document)}
    (distinct : DistinctKeys entries) (entry : String × Document) (member : entry ∈ entries) :
    (Hoisted.statementsOf entry.1 (.ofDocument entry.2)).map some =
      (origins entry.2).map fun found => statementAt? entries (entry.1 :: found.1) := by
  unfold Hoisted.statementsOf
  rw [Hoisted.isExpanding_ofDocument, interfaces_eq_map_expansions, expansions_eq]
  cases h : entry.2.isExpanding with
  | false =>
    have look := (distinct.lookup_eq_some_iff entry.1 entry.2).mpr member
    simp [origins, underKeys, Document.properties_eq_nil _ h, statementAt?, definitionAt?, look, h,
      Hoisted.fieldOf, Definition.shape_ofDocument, FieldType.inline_map,
      Definition.description_ofDocument]
  | true =>
    simp only [if_true, List.map_map]
    apply List.map_congr_left
    intro found inOrigins
    have inExpansions : (found.1, found.2) ∈ expansions entry.2 := by
      rw [expansions_eq, h]
      exact inOrigins
    have reached := (mem_underKeys_expansions distinct (entry.1 :: found.1) found.2).mp
      ((mem_underKeys_cons _ _ _ _ _).mpr ⟨entry.2, member, inExpansions⟩)
    simp [statementAt?_of_isExpanding reached.1 reached.2, KeyPath.root]

theorem statements_eq_map_originPaths {entries : List (String × Document)}
    (distinct : DistinctKeys entries) :
    (Hoisted.statements entries).map some = (originPaths entries).map (statementAt? entries) := by
  simp only [Hoisted.statements, originPaths, underKeys, List.map_flatMap, List.map_map]
  apply List.flatMap_congr
  intro entry member
  exact statementsOf_eq_map_origins distinct entry member

/-! ### The order of the walk -/

/-- Walks that are ordered below every entry are ordered together. -/
theorem pairwise_underKeys (walk : Document → List (List String × Document))
    {entries : List (String × Document)} (distinct : DistinctKeys entries)
    (ordered : ∀ entry ∈ entries,
      ((walk entry.2).map Prod.fst).Pairwise (Precedes entry.2.properties)) :
    ((underKeys walk entries).map Prod.fst).Pairwise (Precedes entries) := by
  simp only [underKeys, List.map_flatMap, List.map_map, Function.comp_def]
  refine List.pairwise_flatMap.mpr ⟨?_, ?_⟩
  · intro entry member
    have look := (distinct.lookup_eq_some_iff entry.1 entry.2).mpr member
    have below := List.pairwise_map.mp (ordered entry member)
    exact List.pairwise_map.mpr (below.imp fun h => h.cons look)
  · refine List.pairwise_iff_forall_sublist.mpr ?_
    intro first second order x hx y hy
    obtain ⟨found, _, rfl⟩ := List.mem_map.mp hx
    obtain ⟨found', _, rfl⟩ := List.mem_map.mp hy
    have keys : [first.1, second.1].Sublist (entries.map Prod.fst) := order.map Prod.fst
    have differ : first.1 ≠ second.1 := by
      have unique := distinct.nodup.sublist keys
      simpa using unique
    exact Precedes.of_keys differ keys _ _

theorem isBelow_nil_of_mem_underKeys {walk : Document → List (List String × Document)}
    {entries : List (String × Document)} {path : List String}
    (member : path ∈ (underKeys walk entries).map Prod.fst) : IsBelow path [] := by
  obtain ⟨⟨path, definition⟩, found, rfl⟩ := List.mem_map.mp member
  refine ⟨path, ?_, rfl⟩
  rintro rfl
  exact nil_not_mem_underKeys walk entries definition found

/-- Every definition comes behind all that lies below it, in the order of the keys. -/
theorem pairwise_origins (definition : Document) (h : definition.hasDistinctKeys = true) :
    ((origins definition).map Prod.fst).Pairwise (Precedes definition.properties) := by
  induction definition using Document.induction_on_properties with
  | step definition ih =>
    have distinct := DistinctKeys.properties h
    have below : ((underKeys expansions definition.properties).map Prod.fst).Pairwise
        (Precedes definition.properties) := by
      apply pairwise_underKeys expansions distinct
      intro entry member
      rw [expansions_eq]
      split
      · exact ih entry member (distinct.of_mem member)
      · simp
    rw [origins, List.map_append]
    refine List.pairwise_append.mpr ⟨below, by simp, ?_⟩
    intro path member last hlast
    have : last = [] := by simpa using hlast
    exact .inl (this ▸ isBelow_nil_of_mem_underKeys member)

theorem pairwise_originPaths {entries : List (String × Document)}
    (distinct : DistinctKeys entries) :
    (originPaths entries).Pairwise (Precedes entries) :=
  pairwise_underKeys origins distinct fun entry member =>
    pairwise_origins entry.2 (distinct.of_mem member)

/-! ### Every statement accounted for -/

theorem accounts_originPaths {entries : List (String × Document)}
    (distinct : DistinctKeys entries) : Accounts entries (originPaths entries) where
  nodup := (pairwise_originPaths distinct).imp fun h same => by
    subst same
    exact h.asymm distinct h
  complete := by
    intro path
    have found : path ∈ originPaths entries ↔ ∃ definition,
        definitionAt? entries path = some definition ∧
          (definition.isExpanding = true ∨ path.length = 1) := by
      simp [originPaths, mem_underKeys_origins distinct]
    rw [found, expands_iff]
    constructor
    · rintro ⟨definition, hd, he⟩
      cases hx : definition.isExpanding with
      | true => exact .inl ⟨definition, hd, hx⟩
      | false =>
        obtain ⟨key, rfl⟩ := List.length_eq_one_iff.mp (he.resolve_left (by simp [hx]))
        exact .inr ⟨key, rfl, definition, hd, hx⟩
    · rintro (⟨definition, hd, hx⟩ | ⟨key, rfl, definition, hd, _⟩)
      · exact ⟨definition, hd, .inl hx⟩
      · exact ⟨definition, hd, .inr rfl⟩
  statements := by
    have same := statements_eq_map_originPaths distinct
    rw [← List.forall₂_eq_eq_eq, List.forall₂_map_left_iff, List.forall₂_map_right_iff] at same
    exact (same.imp fun statement path stands => (standsFor_iff _ _ _).mpr stands.symm).flip

theorem statementAt?_of_expands {entries : List (String × Document)} {path : List String}
    (h : Expands entries path) :
    ∃ declared, statementAt? entries path = some (.interface declared) := by
  obtain ⟨definition, hd, he⟩ := (expands_iff entries path).mp h
  exact ⟨_, statementAt?_of_isExpanding hd he⟩

theorem statementAt?_of_standsAlone {entries : List (String × Document)} {key : String}
    (h : StandsAlone entries key) :
    ∃ item, statementAt? entries [key] = some (.field item) := by
  obtain ⟨definition, hd, he⟩ := h
  exact ⟨Hoisted.fieldOf [] (key, definition), by simp [statementAt?, definitionAt?, hd, he]⟩

theorem encard_of_mem_iff {α : Type} [DecidableEq α] (s : Set α) (l : List α) (unique : l.Nodup)
    (h : ∀ x, x ∈ s ↔ x ∈ l) : s.encard = l.length := by
  have same : s = ↑l.toFinset := by
    ext x
    simp [h]
  rw [same, Set.encard_coe_eq_coe_finsetCard, List.toFinset_card_of_nodup unique]

namespace Accounts

variable {entries : List (String × Document)} {paths : List (List String)}

/-- The statements one by one. -/
theorem map_statements (h : Accounts entries paths) :
    (Hoisted.statements entries).map some = paths.map (statementAt? entries) := by
  rw [← List.forall₂_eq_eq_eq, List.forall₂_map_left_iff, List.forall₂_map_right_iff]
  exact (h.statements.imp fun path statement stands => ((standsFor_iff _ _ _).mp stands).symm).flip

/-- Counting statements is counting paths. -/
theorem countP_statements (h : Accounts entries paths) (p : Statement → Bool) :
    (Hoisted.statements entries).countP p =
      (paths.filter fun path => (statementAt? entries path).any p).length := by
  have counted := congrArg (List.countP fun statement => statement.any p) h.map_statements
  rw [List.countP_map, List.countP_map] at counted
  rw [← List.countP_eq_length_filter]
  exact counted

theorem encard_expands (h : Accounts entries paths) :
    {path | Expands entries path}.encard =
      (Hoisted.statements entries).countP (·.isInterface) := by
  rw [h.countP_statements]
  refine encard_of_mem_iff _ _ (h.nodup.filter _) fun path => ?_
  rw [Set.mem_ofPred_eq, List.mem_filter, h.complete]
  constructor
  · intro expands
    obtain ⟨declared, hs⟩ := statementAt?_of_expands expands
    exact ⟨.inl expands, by simp [hs, Statement.isInterface]⟩
  · rintro ⟨expands | ⟨key, rfl, alone⟩, isInterface⟩
    · exact expands
    · obtain ⟨item, hs⟩ := statementAt?_of_standsAlone alone
      simp [hs, Statement.isInterface] at isInterface

theorem encard_standsAlone (h : Accounts entries paths) :
    {key | StandsAlone entries key}.encard =
      (Hoisted.statements entries).countP (!·.isInterface) := by
  have singletons : Function.Injective fun key : String => [key] := List.singleton_injective
  rw [h.countP_statements, ← singletons.encard_image]
  refine encard_of_mem_iff _ _ (h.nodup.filter _) fun path => ?_
  rw [List.mem_filter, h.complete]
  constructor
  · rintro ⟨key, alone, rfl⟩
    obtain ⟨item, hs⟩ := statementAt?_of_standsAlone alone
    exact ⟨.inr ⟨key, rfl, alone⟩, by simp [hs, Statement.isInterface]⟩
  · rintro ⟨expands | ⟨key, rfl, alone⟩, isField⟩
    · obtain ⟨declared, hs⟩ := statementAt?_of_expands expands
      simp [hs, Statement.isInterface] at isField
    · exact ⟨key, alone, rfl⟩

end Accounts

/-- No node is lost, duplicated or invented. The statements are those of the paths that expand and
of the entries that stand alone, each once; a type that is written in place refers to no interface;
and the counts that a generation reports are the numbers of these paths and entries. -/
theorem statements_accounted (entries : List (String × Document))
    (distinct : DistinctKeys entries) :
    (∃ paths, Accounts entries paths) ∧
    (∀ (definition : Document) (type : FieldType), definition.IsWrittenAs type →
      type.references = []) ∧
    ∀ (generation : Generation) (document : Document) (generated : Generated),
      generation.entries? document = some entries →
      generation.result? document = some generated →
        {path | Expands entries path}.encard = generated.interfaceCount ∧
        {key | StandsAlone entries key}.encard = generated.fieldCount := by
  have account := accounts_originPaths distinct
  refine ⟨⟨_, account⟩, fun _ _ => references_of_isWrittenAs, ?_⟩
  intro generation document generated selected success
  obtain ⟨inner, hs, _, _, interfaces, fields⟩ :=
    (generation.result?_eq_some_iff document generated).mp success
  rw [selected] at hs
  cases hs
  rw [interfaces, fields]
  exact ⟨account.encard_expands, account.encard_standsAlone⟩

/-- An object definition with the given properties. -/
def objectWith (properties : List (String × Document)) : Document :=
  .mapping [("type", .text "object"), ("properties", .mapping properties)]

/-- A definition of a type that needs nothing else. -/
def typed (label : String) : Document :=
  .mapping [("type", .text label)]

/-- A schema in which three pairs of paths have one name: `a_b/c` and `a/b_c`, a key of underscores
and its parent, and two entries that differ in underscores. -/
def collidingSchema : List (String × Document) := [
  ("context", objectWith [
    ("a_b", objectWith [("c", objectWith [("x", typed "string")])]),
    ("empty", objectWith []),
    ("a", objectWith [("b_c", objectWith [("y", typed "array")])]),
    ("_", objectWith [("z", typed "number")])]),
  ("suffix", typed "string"),
  ("context_", objectWith [("t", typed "integer")])]

theorem statements_accounted_colliding :
    DistinctKeys collidingSchema ∧ (∃ paths, Accounts collidingSchema paths) ∧
    ∃ generated, ({} : Generation).result? (.mapping collidingSchema) = some generated ∧
      {path | Expands collidingSchema path}.encard = generated.interfaceCount ∧
      {key | StandsAlone collidingSchema key}.encard = generated.fieldCount := by
  have distinct : DistinctKeys collidingSchema := by decide
  have accepted : (({} : Generation).result? (.mapping collidingSchema)).isSome = true := by decide
  obtain ⟨generated, success⟩ := Option.isSome_iff_exists.mp accepted
  obtain ⟨account, _, counts⟩ := statements_accounted collidingSchema distinct
  exact ⟨distinct, account, generated, success, counts {} _ generated rfl success⟩

end SchemaInterfaces
