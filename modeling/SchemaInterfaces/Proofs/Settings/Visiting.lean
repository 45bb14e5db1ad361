import SchemaInterfaces.Proofs.Settings.Merging
import SchemaInterfaces.Settings.Visiting

/-!
# Any order of keys

A run goes through a table in an order of its own. It meets the same entries in every order
(`visited_perm`), and entries with one key as they stand (`filter_visited`). So a source assigns the
same values to the settings in whatever order a run meets its entries (`assigns_inOrder_iff`).
-/
namespace SchemaInterfaces

section

variable {α β : Type} (hash : String → Nat)

theorem placeByHash_perm (entry : String × α) (entries : List (String × α)) :
    (placeByHash hash entry entries).Perm (entry :: entries) := by
  induction entries with
  | nil => exact .refl _
  | cons first rest ih =>
    rw [placeByHash]
    split
    · exact .refl _
    · exact (ih.cons first).trans (.swap entry first rest)

theorem visited_cons (entry : String × α) (entries : List (String × α)) :
    visited hash (entry :: entries) = placeByHash hash entry (visited hash entries) := rfl

/-- Every entry is met once. -/
theorem visited_perm (entries : List (String × α)) : (visited hash entries).Perm entries := by
  induction entries with
  | nil => exact .refl _
  | cons entry rest ih => exact (placeByHash_perm hash entry _).trans (ih.cons entry)

theorem mem_visited_iff {entries : List (String × α)} {entry : String × α} :
    entry ∈ visited hash entries ↔ entry ∈ entries :=
  (visited_perm hash entries).mem_iff

/-- An entry is put in front of those with its own key. -/
theorem filter_placeByHash (key : String) (entry : String × α) (entries : List (String × α)) :
    (placeByHash hash entry entries).filter (·.1 = key) =
      (entry :: entries).filter (·.1 = key) := by
  induction entries with
  | nil => rfl
  | cons first rest ih =>
    rw [placeByHash]
    split
    · rfl
    next later =>
      have differ : ¬ (entry.1 = key ∧ first.1 = key) := by
        rintro ⟨rfl, same⟩
        exact later (Nat.le_of_eq (by rw [same]))
      rw [List.filter_cons, ih]
      by_cases own : entry.1 = key <;> by_cases other : first.1 = key <;> simp_all

/-- Entries with one key are met in the order in which they stand. -/
theorem filter_visited (key : String) (entries : List (String × α)) :
    (visited hash entries).filter (·.1 = key) = entries.filter (·.1 = key) := by
  induction entries with
  | nil => rfl
  | cons entry rest ih =>
    rw [visited_cons, filter_placeByHash, List.filter_cons, List.filter_cons, ih]

theorem findSome?_filter {key : String} {find : String × α → Option β}
    {entries : List (String × α)} (only : ∀ entry ∈ entries, entry.1 ≠ key → find entry = none) :
    entries.findSome? find = (entries.filter (·.1 = key)).findSome? find := by
  induction entries with
  | nil => rfl
  | cons entry rest ih =>
    obtain ⟨own, others⟩ := List.forall_mem_cons.mp only
    rw [List.findSome?_cons, ih others]
    by_cases here : entry.1 = key
    · rw [List.filter_cons_of_pos (by simpa using here), List.findSome?_cons]
    · rw [List.filter_cons_of_neg (by simpa using here), own here]

/-- What is found under one key only is found in every order. -/
theorem findSome?_visited {key : String} {find : String × α → Option β}
    {entries : List (String × α)} (only : ∀ entry ∈ entries, entry.1 ≠ key → find entry = none) :
    (visited hash entries).findSome? find = entries.findSome? find := by
  rw [findSome?_filter only, ← filter_visited hash, ← findSome?_filter]
  exact fun entry member => only entry ((mem_visited_iff hash).mp member)

end

/-! ### The entries of a source -/

namespace Setting

variable {hashes : List String → String → Nat} {entries : List (String × Setting)}
  {entry : String × Setting}

theorem arranged_scalar (path : List String) (source : Option String) (value : Scalar) :
    (scalar source value).arranged hashes path = scalar source value := by
  rw [arranged]

theorem mem_arrangedEntries_iff {path : List String} :
    entry ∈ arrangedEntries hashes path entries ↔
      ∃ inner ∈ entries, entry = (inner.1, inner.2.arranged hashes (path ++ [inner.1])) := by
  induction entries with
  | nil => simp [arrangedEntries]
  | cons first rest ih =>
    obtain ⟨key, value⟩ := first
    rw [arrangedEntries, List.mem_cons, ih]
    simp only [List.mem_cons, exists_eq_or_imp]

theorem mem_inOrder_iff :
    entry ∈ inOrder hashes entries ↔
      ∃ inner ∈ entries, entry = (inner.1, inner.2.arranged hashes [inner.1]) := by
  rw [inOrder, mem_visited_iff, mem_arrangedEntries_iff]
  rfl

theorem arranged_eq_scalar_iff {path : List String} {value : Setting} {source : Option String}
    {single : Scalar} :
    value.arranged hashes path = scalar source single ↔ value = scalar source single := by
  cases value <;> simp [arranged]

/-- Single values of a table stay under their keys. -/
theorem mem_visited_arrangedEntries_iff {path : List String} {name : String}
    {source : Option String} {single : Scalar} :
    (name, scalar source single) ∈ visited (hashes path) (arrangedEntries hashes path entries) ↔
      (name, scalar source single) ∈ entries := by
  rw [mem_visited_iff, mem_arrangedEntries_iff]
  constructor
  · rintro ⟨⟨key, value⟩, member, equal⟩
    obtain ⟨rfl, arranged⟩ := Prod.mk.inj equal
    obtain rfl : value = scalar source single := arranged_eq_scalar_iff.mp arranged.symm
    exact member
  · exact fun member => ⟨_, member, by rw [arranged_scalar]⟩

end Setting

section

variable {hashes : List String → String → Nat} {entries : List (String × Setting)}
  {entry : String × Setting} {part : SectionName} {name : String}

theorem IsSettingsTable.arranged {path : List String} (settings : IsSettingsTable part entries) :
    IsSettingsTable part (visited (hashes path) (Setting.arrangedEntries hashes path entries)) := by
  intro entry member known
  obtain ⟨inner, inside, rfl⟩ :=
    Setting.mem_arrangedEntries_iff.mp ((mem_visited_iff _).mp member)
  obtain ⟨own, source, single, scalar⟩ := settings inner inside known
  exact ⟨own, source, single, by rw [scalar, Setting.arranged_scalar]⟩

theorem IsSettingsEntry.arranged (settings : IsSettingsEntry entry) (path : List String) :
    IsSettingsEntry (entry.1, entry.2.arranged hashes path) := by
  cases settings with
  | foreign key value foreign => exact .foreign key _ foreign
  | table part source table isSettings =>
    rw [Setting.arranged]
    exact .table part source _ isSettings.arranged
  | path part name source scalar known =>
    rw [Setting.arranged_scalar]
    exact .path part name source scalar known

theorem isSettingsEntry_of_mem_inOrder (hashes : List String → String → Nat)
    (settings : ∀ entry ∈ entries, IsSettingsEntry entry) :
    ∀ entry ∈ Setting.inOrder hashes entries, IsSettingsEntry entry := by
  intro entry member
  obtain ⟨inner, inside, rfl⟩ := Setting.mem_inOrder_iff.mp member
  exact (settings inner inside).arranged _

/-- What a proper entry assigns is a single value. -/
theorem Assigns.exists_scalar {value : Setting} (settings : IsSettingsEntry entry)
    (known : name ∈ part.settings) (assigns : Assigns entry part name value) :
    ∃ source scalar, value = .scalar source scalar := by
  cases settings with
  | foreign key value foreign => exact absurd assigns (Assigns.not_foreign foreign known)
  | table own source table isSettings =>
    obtain ⟨rfl, member⟩ := (Assigns.table_iff known).mp assigns
    exact (isSettings _ member (by rwa [part.toLower_of_mem_settings name known])).2
  | path own name' source scalar own_known =>
    exact ⟨source, scalar, ((Assigns.path_iff known own_known).mp assigns).2.2⟩

theorem assigns_table_iff {key : String} {origin source : Option String} {scalar : Scalar} :
    Assigns (key, .table origin entries) part name (.scalar source scalar) ↔
      key = part.key ∧ (name, .scalar source scalar) ∈ entries := by
  constructor
  · rintro (⟨_, _, same, member⟩ | same)
    · cases same
      exact ⟨rfl, member⟩
    · cases congrArg Prod.snd same
  · rintro ⟨rfl, member⟩
    exact .inl ⟨_, _, rfl, member⟩

theorem assigns_arranged_iff {path : List String} {source : Option String} {scalar : Scalar} :
    Assigns (entry.1, entry.2.arranged hashes path) part name (.scalar source scalar) ↔
      Assigns entry part name (.scalar source scalar) := by
  obtain ⟨key, value⟩ := entry
  cases value with
  | scalar origin single => rw [Setting.arranged_scalar]
  | list origin items => rw [Setting.arranged]
  | table origin inner =>
    rw [Setting.arranged, assigns_table_iff, assigns_table_iff,
      Setting.mem_visited_arrangedEntries_iff]

/-- A source assigns the same values in whatever order its entries are met. -/
theorem assigns_inOrder_iff (settings : ∀ entry ∈ entries, IsSettingsEntry entry)
    (known : name ∈ part.settings) (value : Setting) :
    (∃ entry ∈ Setting.inOrder hashes entries, Assigns entry part name value) ↔
      ∃ entry ∈ entries, Assigns entry part name value := by
  constructor
  · rintro ⟨entry, member, assigns⟩
    obtain ⟨source, scalar, rfl⟩ :=
      assigns.exists_scalar (isSettingsEntry_of_mem_inOrder _ settings entry member) known
    obtain ⟨inner, inside, rfl⟩ := Setting.mem_inOrder_iff.mp member
    exact ⟨inner, inside, assigns_arranged_iff.mp assigns⟩
  · rintro ⟨entry, member, assigns⟩
    obtain ⟨source, scalar, rfl⟩ := assigns.exists_scalar (settings entry member) known
    exact ⟨_, Setting.mem_inOrder_iff.mpr ⟨entry, member, rfl⟩, assigns_arranged_iff.mpr assigns⟩

end

end SchemaInterfaces
