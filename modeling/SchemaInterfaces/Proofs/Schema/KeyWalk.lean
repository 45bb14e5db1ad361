import SchemaInterfaces.Proofs.Schema.Properties

/-!
# Walking a schema by keys

A path of keys leads from the entries of a root mapping to a definition: each key is looked up
among the properties of the definition before it. This module holds the notions that later
statements are made of, without any reference to how interfaces are generated: mappings with
distinct keys, the definition at a path, the paths on which every definition expands, and the order
of two paths in which descendants come first and else the order of declaration decides.
-/
namespace SchemaInterfaces

namespace Document

mutual

/-- Whether every mapping in a document has each of its keys once. -/
def hasDistinctKeys : Document → Bool
  | mapping entries => decide (entries.map Prod.fst).Nodup && valuesDistinct entries
  | sequence items => itemsDistinct items
  | null | boolean _ | number _ | text _ => true

def itemsDistinct : List Document → Bool
  | [] => true
  | item :: rest => hasDistinctKeys item && itemsDistinct rest

def valuesDistinct : List (String × Document) → Bool
  | [] => true
  | (_, value) :: rest => hasDistinctKeys value && valuesDistinct rest

end

theorem valuesDistinct_iff (entries : List (String × Document)) :
    valuesDistinct entries = true ↔ ∀ entry ∈ entries, entry.2.hasDistinctKeys = true := by
  induction entries with
  | nil => simp [valuesDistinct]
  | cons entry rest ih => simp [valuesDistinct, ih]

end Document

/-- The entries of a root mapping in which, as in every mapping below, each key stands once. -/
def DistinctKeys (entries : List (String × Document)) : Prop :=
  (Document.mapping entries).hasDistinctKeys = true

instance (entries : List (String × Document)) : Decidable (DistinctKeys entries) :=
  inferInstanceAs (Decidable (_ = true))

namespace DistinctKeys

theorem iff (entries : List (String × Document)) :
    DistinctKeys entries ↔
      (entries.map Prod.fst).Nodup ∧ ∀ entry ∈ entries, entry.2.hasDistinctKeys = true := by
  simp [DistinctKeys, Document.hasDistinctKeys, Document.valuesDistinct_iff]

variable {entries : List (String × Document)}

theorem nodup (distinct : DistinctKeys entries) : (entries.map Prod.fst).Nodup :=
  ((iff entries).mp distinct).1

theorem lookup_eq_some_iff (distinct : DistinctKeys entries) (key : String)
    (definition : Document) :
    entries.lookup key = some definition ↔ (key, definition) ∈ entries :=
  Document.lookup_eq_some_iff_of_nodup distinct.nodup key definition

theorem of_mem (distinct : DistinctKeys entries) {key : String} {definition : Document}
    (member : (key, definition) ∈ entries) : definition.hasDistinctKeys = true :=
  ((iff entries).mp distinct).2 _ member

theorem of_lookup (distinct : DistinctKeys entries) {key : String} {definition : Document}
    (h : entries.lookup key = some definition) : definition.hasDistinctKeys = true :=
  distinct.of_mem (Document.mem_of_lookup_eq_some entries key definition h)

/-- The properties of a definition are one of the mappings in it. -/
theorem properties {definition : Document} (h : definition.hasDistinctKeys = true) :
    DistinctKeys definition.properties := by
  cases hp : definition.properties with
  | nil => rfl
  | cons first rest =>
    obtain ⟨held, hd, hl⟩ := Document.entries_of_mem_properties definition first (by simp [hp])
    rw [hd] at h
    rw [← hp]
    exact of_lookup h hl

end DistinctKeys

/-! ### The definition at a path -/

/-- The definition that a path of keys leads to. The empty path leads to none. -/
def definitionAt? : List (String × Document) → List String → Option Document
  | _, [] => none
  | entries, [key] => entries.lookup key
  | entries, key :: next :: rest =>
    (entries.lookup key).bind fun definition => definitionAt? definition.properties (next :: rest)

/-- The entries in which a path goes on: those of the root, or the properties at the path. -/
def entriesAt? (entries : List (String × Document)) :
    List String → Option (List (String × Document))
  | [] => some entries
  | key :: rest => (definitionAt? entries (key :: rest)).map Document.properties

theorem definitionAt?_cons (entries : List (String × Document)) (key : String)
    (rest : List String) (hne : rest ≠ []) :
    definitionAt? entries (key :: rest) =
      (entries.lookup key).bind fun definition => definitionAt? definition.properties rest := by
  cases rest with
  | nil => exact absurd rfl hne
  | cons next rest => rfl

theorem entriesAt?_cons (entries : List (String × Document)) (key : String) (rest : List String) :
    entriesAt? entries (key :: rest) =
      (entries.lookup key).bind fun definition => entriesAt? definition.properties rest := by
  cases rest with
  | nil => cases h : entries.lookup key <;> simp [entriesAt?, definitionAt?, h]
  | cons next rest => cases h : entries.lookup key <;> simp [entriesAt?, definitionAt?, h]

theorem definitionAt?_append {entries : List (String × Document)} (path : List String)
    (key : String) (definition : Document)
    (h : definitionAt? entries path = some definition) :
    definitionAt? entries (path ++ [key]) = definition.properties.lookup key := by
  induction path generalizing entries with
  | nil => cases h
  | cons first rest ih =>
    rw [List.cons_append, definitionAt?_cons _ _ _ (by simp)]
    by_cases hr : rest = []
    · subst hr
      simp only [definitionAt?] at h
      simp [h, definitionAt?]
    · rw [definitionAt?_cons _ _ _ hr] at h
      obtain ⟨inner, hl, hd⟩ := Option.bind_eq_some_iff.mp h
      rw [hl, Option.bind_some]
      exact ih hd

theorem definitionAt?_hasDistinctKeys {entries : List (String × Document)}
    (distinct : DistinctKeys entries) {path : List String} {definition : Document}
    (h : definitionAt? entries path = some definition) :
    definition.hasDistinctKeys = true := by
  induction path generalizing entries with
  | nil => cases h
  | cons key rest ih =>
    by_cases hr : rest = []
    · subst hr
      exact distinct.of_lookup h
    · rw [definitionAt?_cons _ _ _ hr] at h
      obtain ⟨inner, hl, hd⟩ := Option.bind_eq_some_iff.mp h
      exact ih (DistinctKeys.properties (distinct.of_lookup hl)) hd

theorem entriesAt?_distinct {entries siblings : List (String × Document)}
    (distinct : DistinctKeys entries) (path : List String)
    (h : entriesAt? entries path = some siblings) : DistinctKeys siblings := by
  cases path with
  | nil =>
    cases h
    exact distinct
  | cons key rest =>
    obtain ⟨definition, hd, rfl⟩ := Option.map_eq_some_iff.mp h
    exact DistinctKeys.properties (definitionAt?_hasDistinctKeys distinct hd)

/-- A path expands when every definition on it, the last one included, is an object with
properties. -/
def Expands (entries : List (String × Document)) (path : List String) : Prop :=
  path ≠ [] ∧ ∀ front, front ≠ [] → front <+: path →
    ∃ definition, definitionAt? entries front = some definition ∧ definition.isExpanding = true

/-- Where a path leads on below a definition, that definition expands. -/
theorem isExpanding_of_prefix (entries : List (String × Document)) (front rest : List String)
    (definition : Document) (hne : front ≠ [])
    (h : definitionAt? entries (front ++ rest) = some definition)
    (last : definition.isExpanding = true) :
    ∃ inner, definitionAt? entries front = some inner ∧ inner.isExpanding = true := by
  induction front generalizing entries with
  | nil => exact absurd rfl hne
  | cons key front ih =>
    by_cases hr : front ++ rest = []
    · obtain ⟨rfl, rfl⟩ := List.append_eq_nil_iff.mp hr
      exact ⟨definition, h, last⟩
    · rw [List.cons_append, definitionAt?_cons _ _ _ hr] at h
      obtain ⟨outer, hl, hd⟩ := Option.bind_eq_some_iff.mp h
      by_cases hf : front = []
      · subst hf
        refine ⟨outer, hl, (Document.isExpanding_iff outer).mpr ?_⟩
        intro none
        rw [none, List.nil_append] at hd
        cases rest with
        | nil => exact hr rfl
        | cons next rest => cases rest <;> simp [definitionAt?] at hd
      · rw [definitionAt?_cons _ _ _ hf, hl]
        exact ih outer.properties hf hd

/-- The last definition decides, since only an object has properties to go on into. -/
theorem expands_iff (entries : List (String × Document)) (path : List String) :
    Expands entries path ↔
      ∃ definition, definitionAt? entries path = some definition ∧
        definition.isExpanding = true := by
  constructor
  · intro h
    exact h.2 path h.1 List.prefix_rfl
  · rintro ⟨definition, hd, he⟩
    refine ⟨?_, ?_⟩
    · rintro rfl
      cases hd
    · rintro front hne ⟨rest, rfl⟩
      exact isExpanding_of_prefix entries front rest definition hne hd he

/-- An entry of the root that does not expand. -/
def StandsAlone (entries : List (String × Document)) (key : String) : Prop :=
  ∃ definition, entries.lookup key = some definition ∧ definition.isExpanding = false

/-! ### The order of paths -/

/-- A path that runs on behind the end of another one. -/
def IsBelow (path above : List String) : Prop :=
  ∃ rest, rest ≠ [] ∧ path = above ++ rest

/-- Two paths part at two keys of one mapping, and the first path takes the earlier key. -/
def BranchesBefore (entries : List (String × Document)) (first second : List String) : Prop :=
  ∃ common a b afterA afterB siblings,
    first = common ++ a :: afterA ∧ second = common ++ b :: afterB ∧ a ≠ b ∧
    entriesAt? entries common = some siblings ∧ [a, b].Sublist (siblings.map Prod.fst)

/-- What lies below comes first, else the order of the keys at which the paths part decides. -/
def Precedes (entries : List (String × Document)) (first second : List String) : Prop :=
  IsBelow first second ∨ BranchesBefore entries first second

theorem IsBelow.cons {path above : List String} (h : IsBelow path above) (key : String) :
    IsBelow (key :: path) (key :: above) := by
  obtain ⟨rest, hne, rfl⟩ := h
  exact ⟨rest, hne, rfl⟩

/-- Paths below one entry are ordered as they are among the properties of that entry. -/
theorem Precedes.cons {entries : List (String × Document)} {key : String} {definition : Document}
    {first second : List String} (hl : entries.lookup key = some definition)
    (h : Precedes definition.properties first second) :
    Precedes entries (key :: first) (key :: second) := by
  rcases h with below | ⟨common, a, b, afterA, afterB, siblings, rfl, rfl, hne, hs, order⟩
  · exact .inl (below.cons key)
  · refine .inr ⟨key :: common, a, b, afterA, afterB, siblings, rfl, rfl, hne, ?_, order⟩
    rw [entriesAt?_cons, hl]
    exact hs

theorem Precedes.of_keys {entries : List (String × Document)} {a b : String} (hne : a ≠ b)
    (order : [a, b].Sublist (entries.map Prod.fst)) (afterA afterB : List String) :
    Precedes entries (a :: afterA) (b :: afterB) :=
  .inr ⟨[], a, b, afterA, afterB, entries, rfl, rfl, hne, rfl, order⟩

/-- In a list without repetition two elements have one order. -/
theorem not_sublist_swap {α : Type} {l : List α} (unique : l.Nodup) {a b : α}
    (order : [a, b].Sublist l) : ¬ [b, a].Sublist l := by
  intro swapped
  induction l with
  | nil => simp at order
  | cons head tail ih =>
    have split := List.nodup_cons.mp unique
    rcases List.sublist_cons_iff.mp order with inTail | ⟨rest, h, inTail⟩
    · rcases List.sublist_cons_iff.mp swapped with inTail' | ⟨rest', h', _⟩
      · exact ih split.2 inTail inTail'
      · simp only [List.cons.injEq] at h'
        exact split.1 (h'.1 ▸ inTail.subset (by simp))
    · simp only [List.cons.injEq] at h
      obtain ⟨rfl, rfl⟩ := h
      rcases List.sublist_cons_iff.mp swapped with inTail' | ⟨rest', h', _⟩
      · exact split.1 (inTail'.subset (by simp))
      · simp only [List.cons.injEq] at h'
        exact split.1 (h'.1 ▸ inTail.subset (by simp))

/-- Two paths part at one place only. -/
theorem parting_unique {common common' : List String} {a b a' b' : String}
    {afterA afterB afterA' afterB' : List String} (hne : a ≠ b) (hne' : a' ≠ b')
    (first : common ++ a :: afterA = common' ++ a' :: afterA')
    (second : common ++ b :: afterB = common' ++ b' :: afterB') :
    common = common' ∧ a = a' ∧ b = b' := by
  induction common generalizing common' with
  | nil =>
    cases common' with
    | nil =>
      simp only [List.nil_append, List.cons.injEq] at first second
      exact ⟨rfl, first.1, second.1⟩
    | cons key rest =>
      simp only [List.nil_append, List.cons_append, List.cons.injEq] at first second
      exact absurd (first.1.trans second.1.symm) hne
  | cons key rest ih =>
    cases common' with
    | nil =>
      simp only [List.nil_append, List.cons_append, List.cons.injEq] at first second
      exact absurd (first.1.symm.trans second.1) hne'
    | cons key' rest' =>
      simp only [List.cons_append, List.cons.injEq] at first second
      obtain ⟨hr, ha, hb⟩ := ih first.2 second.2
      exact ⟨by rw [first.1, hr], ha, hb⟩

theorem not_isBelow_of_branchesBefore {entries : List (String × Document)}
    {first second : List String} (h : BranchesBefore entries first second) :
    ¬ IsBelow first second ∧ ¬ IsBelow second first := by
  obtain ⟨common, a, b, afterA, afterB, siblings, rfl, rfl, hne, _, _⟩ := h
  constructor
  · rintro ⟨rest, _, h⟩
    rw [List.append_assoc, List.append_cancel_left_eq, List.cons_append, List.cons.injEq] at h
    exact hne h.1
  · rintro ⟨rest, _, h⟩
    rw [List.append_assoc, List.append_cancel_left_eq, List.cons_append, List.cons.injEq] at h
    exact hne h.1.symm

/-- No two paths precede each other. -/
theorem Precedes.asymm {entries : List (String × Document)} (distinct : DistinctKeys entries)
    {first second : List String} (h : Precedes entries first second) :
    ¬ Precedes entries second first := by
  rintro (below' | branch')
  · rcases h with below | branch
    · obtain ⟨rest, hne, h⟩ := below
      obtain ⟨rest', _, h'⟩ := below'
      have hl := congrArg List.length h
      have hl' := congrArg List.length h'
      have := List.length_pos_iff.mpr hne
      simp only [List.length_append] at hl hl'
      omega
    · exact (not_isBelow_of_branchesBefore branch).2 below'
  · rcases h with below | branch
    · exact (not_isBelow_of_branchesBefore branch').2 below
    · obtain ⟨common, a, b, afterA, afterB, siblings, rfl, rfl, hne, hs, order⟩ := branch
      obtain ⟨common', b', a', _, _, siblings', hb, ha, hne', hs', order'⟩ := branch'
      obtain ⟨rfl, rfl, rfl⟩ := parting_unique hne hne'.symm ha hb
      rw [hs] at hs'
      cases hs'
      exact not_sublist_swap (entriesAt?_distinct distinct common hs).nodup order order'

end SchemaInterfaces
