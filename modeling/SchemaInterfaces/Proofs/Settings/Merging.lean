import SchemaInterfaces.Proofs.Document
import SchemaInterfaces.Settings.Conversion
import SchemaInterfaces.Settings.Merging

/-!
# Merging changes what a source assigns

Merged values are a table with a table for each section. An entry of a source is a whole section,
a path to a single setting, or about something else. Putting it over the values gives each setting
that it assigns its new value and leaves every other setting as it was; sections are merged and
never replaced (`Setting.putAt_spec`, `Setting.putSource_spec`).
-/
namespace SchemaInterfaces

/-- The keys of the settings of a section. -/
def SectionName.settings (part : SectionName) : List String :=
  part.declared.map Prod.fst

/-- The path to a setting of a section. -/
def SectionName.pathOf (part : SectionName) (name : String) : String :=
  part.key ++ "." ++ name

namespace KeyExpression

/-- The key at which the steps of a key expression begin. -/
def firstKey (text : String) : String :=
  match stepsOf text with
  | .key name :: _ => name
  | _ => text

/-- A key expression begins at a key. -/
theorem stepsOf_eq_cons (text : String) :
    ∃ rest, stepsOf text = .key (firstKey text) :: rest := by
  have begins : ∃ name rest, stepsOf text = .key name :: rest := by
    unfold stepsOf key?
    by_cases empty : (text.toList.takeWhile isKeyCharacter).isEmpty = true
    · exact ⟨text, [], by simp [empty]⟩
    · simp only [empty, Bool.false_eq_true, if_false, Option.bind_eq_bind, Option.bind_some]
      cases steps? _ (text.toList.dropWhile isKeyCharacter) with
      | none => exact ⟨text, [], rfl⟩
      | some rest => exact ⟨_, rest, rfl⟩
  obtain ⟨name, rest, steps⟩ := begins
  exact ⟨rest, by rw [firstKey, steps]⟩

end KeyExpression

open KeyExpression (stepsOf firstKey)

/-- The key leads into no section, in whatever case it is written. -/
def IsForeignKey (key : String) : Prop :=
  ∀ part : SectionName, Text.toLower (firstKey key) ≠ part.key

namespace SectionName

theorem stepsOf_key (part : SectionName) : stepsOf part.key = [.key part.key] := by
  cases part <;> decide

theorem toLower_key (part : SectionName) : Text.toLower part.key = part.key := by
  cases part <;> decide

theorem key_injective {first second : SectionName} (same : first.key = second.key) :
    first = second := by
  cases first <;> cases second <;> first | rfl | exact absurd same (by decide)

theorem stepsOf_pathOf (part : SectionName) :
    ∀ name ∈ part.settings, stepsOf (part.pathOf name) = [.key part.key, .key name] := by
  cases part <;> decide

theorem toLower_of_mem_settings (part : SectionName) :
    ∀ name ∈ part.settings, Text.toLower name = name := by
  cases part <;> decide

end SectionName

namespace Setting

/-- The entries of a section; a section that is missing has none. -/
def sectionEntries (values : Setting) (part : SectionName) : List (String × Setting) :=
  match values.entries.lookup part.key with
  | some (.table _ entries) => entries
  | _ => []

/-- The value that is given for a setting. -/
def given? (values : Setting) (part : SectionName) (name : String) : Option Setting :=
  (values.sectionEntries part).lookup name

/-- A table in which every section is a table. -/
structure IsSectioned (values : Setting) : Prop where
  isTable : ∃ source entries, values = .table source entries
  sections : ∀ part : SectionName, ∀ value ∈ values.entries.lookup part.key,
    ∃ source entries, value = .table source entries

theorem isSectioned_empty : (table none []).IsSectioned :=
  ⟨⟨_, _, rfl⟩, fun part value held => by cases held⟩

end Setting

/-- An entry of a source assigns a value to a setting: within a table, or by the path to it. -/
def Assigns (entry : String × Setting) (part : SectionName) (name : String) (value : Setting) :
    Prop :=
  (∃ source table, entry = (part.key, .table source table) ∧ (name, value) ∈ table) ∨
    entry = (part.pathOf name, value)

/-- A table of a section gives its settings single values under their own names. -/
def IsSettingsTable (part : SectionName) (table : List (String × Setting)) : Prop :=
  ∀ entry ∈ table, Text.toLower entry.1 ∈ part.settings →
    entry.1 ∈ part.settings ∧ ∃ source scalar, entry.2 = .scalar source scalar

/-- An entry of a source is about no section, or a table of a section, or a single value for a
setting. -/
inductive IsSettingsEntry : String × Setting → Prop where
  | foreign (key : String) (value : Setting) (h : IsForeignKey key) : IsSettingsEntry (key, value)
  | table (part : SectionName) (source : Option String) (table : List (String × Setting))
      (h : IsSettingsTable part table) : IsSettingsEntry (part.key, .table source table)
  | path (part : SectionName) (name : String) (source : Option String) (scalar : Scalar)
      (h : name ∈ part.settings) : IsSettingsEntry (part.pathOf name, .scalar source scalar)

/-- What a setting has been given after some assignments: the value of one of them, or what it had
if there is none. -/
def IsUpdated (before after : Option Setting) (assigned : Setting → Prop) : Prop :=
  (after = before ∧ ∀ value, ¬ assigned value) ∨ ∃ value, assigned value ∧ after = some value

theorem IsUpdated.congr {before after : Option Setting} {assigned assigned' : Setting → Prop}
    (h : IsUpdated before after assigned) (same : ∀ value, assigned value ↔ assigned' value) :
    IsUpdated before after assigned' := by
  rcases h with ⟨kept, none⟩ | ⟨value, here, now⟩
  · exact .inl ⟨kept, fun value => mt (same value).mpr (none value)⟩
  · exact .inr ⟨value, (same value).mp here, now⟩

/-- One update after another. -/
theorem IsUpdated.trans {before middle after : Option Setting} {first second : Setting → Prop}
    (h : IsUpdated before middle first) (h' : IsUpdated middle after second) :
    IsUpdated before after fun value => first value ∨ second value := by
  rcases h' with ⟨rfl, none'⟩ | ⟨value, here, now⟩
  · rcases h with ⟨rfl, none⟩ | ⟨value, here, now⟩
    · exact .inl ⟨rfl, fun value => not_or.mpr ⟨none value, none' value⟩⟩
    · exact .inr ⟨value, .inl here, now⟩
  · exact .inr ⟨value, .inr here, now⟩

namespace Setting

/-! ### One key of a table -/

theorem lookup_putUnder_of_ne {key other : String} (h : other ≠ Text.toLower key)
    (table : List (String × Setting)) (value : Setting) :
    (putUnder key table value).lookup other = table.lookup other := by
  cases value with
  | table source incoming =>
    rw [putUnder]
    split
    · exact lookup_insertEntry_of_ne h _ _
    · exact lookup_insertEntry_of_ne h _ _
    · split
      · rfl
      · exact lookup_insertEntry_of_ne h _ _
  | _ => exact lookup_insertEntry_of_ne h _ _

theorem lookup_putUnder_scalar (key : String) (table : List (String × Setting))
    (source : Option String) (scalar : Scalar) :
    (putUnder key table (.scalar source scalar)).lookup (Text.toLower key) =
      some (.scalar source scalar) :=
  lookup_insertEntry_self _ _ _

/-- A table of settings updates the settings that it names. -/
theorem lookup_putEntries {part : SectionName} {incoming : List (String × Setting)}
    (settings : IsSettingsTable part incoming) (table : List (String × Setting)) {name : String}
    (known : name ∈ part.settings) :
    IsUpdated (table.lookup name) ((putEntries table incoming).lookup name)
      fun value => (name, value) ∈ incoming := by
  induction incoming generalizing table with
  | nil => exact .inl ⟨by rw [putEntries], by simp⟩
  | cons entry rest ih =>
    obtain ⟨key, value⟩ := entry
    have first : IsUpdated (table.lookup name) ((putUnder key table value).lookup name)
        fun v => (name, v) = (key, value) := by
      by_cases here : name = Text.toLower key
      · obtain ⟨own, source, scalar, rfl⟩ := settings (key, value) (.head _) (here ▸ known)
        have exactly : name = key := here.trans (part.toLower_of_mem_settings key own)
        refine .inr ⟨_, by rw [exactly], ?_⟩
        rw [here, lookup_putUnder_scalar]
      · refine .inl ⟨lookup_putUnder_of_ne here _ _, fun v same => ?_⟩
        obtain rfl : name = key := congrArg Prod.fst same
        exact here (part.toLower_of_mem_settings name known).symm
    have others :=
      ih (fun entry member => settings entry (.tail _ member)) (putUnder key table value)
    rw [putEntries]
    exact (first.trans others).congr fun v => List.mem_cons.symm

/-! ### One entry of a source -/

variable {values : Setting} {part : SectionName}

theorem sectionEntries_congr {values values' : Setting}
    (same : values'.entries.lookup part.key = values.entries.lookup part.key) :
    values'.sectionEntries part = values.sectionEntries part := by
  rw [sectionEntries, same, sectionEntries]

/-- A path changes no key but the one at which it begins. -/
theorem lookup_putAt_of_ne {name other : String} (h : other ≠ Text.toLower name) (value : Setting)
    (rest : List KeyStep) (target : Setting) :
    (putAt value (.key name :: rest) target).entries.lookup other =
      target.entries.lookup other := by
  cases rest with
  | nil => exact lookup_putUnder_of_ne h _ _
  | cons step rest => exact lookup_insertEntry_of_ne h _ _

theorem isTable_putAt (value : Setting) (name : String) (rest : List KeyStep) (target : Setting) :
    ∃ source entries, putAt value (.key name :: rest) target = .table source entries := by
  cases rest with
  | nil => exact ⟨_, _, rfl⟩
  | cons step rest => exact ⟨_, _, rfl⟩

/-- A table of a section is merged into the section. -/
theorem sectionEntries_putUnder (sectioned : values.IsSectioned) (part : SectionName)
    (source : Option String) (table : List (String × Setting)) :
    ∃ origin, (putUnder part.key values.entries (.table source table)).lookup part.key =
      some (.table origin (putEntries (values.sectionEntries part) table)) := by
  have held := sectioned.sections part
  rw [putUnder, part.toLower_key, sectionEntries]
  cases found : values.entries.lookup part.key with
  | none => exact ⟨none, lookup_insertEntry_self _ _ _⟩
  | some value =>
    obtain ⟨origin, entries, rfl⟩ := held value found
    exact ⟨origin, lookup_insertEntry_self _ _ _⟩

theorem entries_section (sectioned : values.IsSectioned) :
    ((values.entries.lookup part.key).getD nothing).entries = values.sectionEntries part := by
  have held := sectioned.sections part
  rw [sectionEntries]
  cases found : values.entries.lookup part.key with
  | none => rfl
  | some value =>
    obtain ⟨origin, entries, rfl⟩ := held value found
    rfl

/-- An entry that changes one section at most leaves a table of sections. -/
theorem IsSectioned.of_section {values' : Setting} (sectioned : values.IsSectioned)
    (isTable : ∃ source entries, values' = .table source entries)
    (others : ∀ other : SectionName, other ≠ part →
      values'.entries.lookup other.key = values.entries.lookup other.key)
    (here : ∃ source entries, values'.entries.lookup part.key = some (.table source entries)) :
    values'.IsSectioned := by
  refine ⟨isTable, fun other value held => ?_⟩
  by_cases same : other = part
  · obtain ⟨source, entries, now⟩ := here
    rw [same, now] at held
    exact ⟨source, entries, (Option.some.inj held).symm⟩
  · rw [others other same] at held
    exact sectioned.sections other value held

end Setting

namespace SectionName

variable {part other : SectionName} {name own : String}

theorem firstKey_key (part : SectionName) : firstKey part.key = part.key := by
  rw [firstKey, part.stepsOf_key]

theorem firstKey_pathOf (known : name ∈ part.settings) :
    firstKey (part.pathOf name) = part.key := by
  rw [firstKey, part.stepsOf_pathOf name known]

theorem key_ne_pathOf (known : name ∈ other.settings) : part.key ≠ other.pathOf name := by
  intro same
  have steps := congrArg stepsOf same
  rw [part.stepsOf_key, other.stepsOf_pathOf name known] at steps
  simp at steps

theorem pathOf_injective (known : name ∈ part.settings) (known' : own ∈ other.settings)
    (same : part.pathOf name = other.pathOf own) : part = other ∧ name = own := by
  have steps := congrArg stepsOf same
  rw [part.stepsOf_pathOf name known, other.stepsOf_pathOf own known'] at steps
  simp only [List.cons.injEq, KeyStep.key.injEq, and_true] at steps
  exact ⟨key_injective steps.1, steps.2⟩

end SectionName

namespace Assigns

variable {part other : SectionName} {name own : String} {value assigned : Setting}

theorem not_foreign {key : String} (foreign : IsForeignKey key) (known : name ∈ part.settings) :
    ¬ Assigns (key, value) part name assigned := by
  have leads : firstKey key ≠ part.key := fun same => by
    have lower := foreign part
    rw [same] at lower
    exact lower part.toLower_key
  rintro (⟨source, table, same, _⟩ | same)
  · obtain rfl : key = part.key := congrArg Prod.fst same
    exact leads part.firstKey_key
  · obtain rfl : key = part.pathOf name := congrArg Prod.fst same
    exact leads (SectionName.firstKey_pathOf known)

theorem table_iff {source : Option String} {table : List (String × Setting)}
    (known : name ∈ other.settings) :
    Assigns (part.key, .table source table) other name assigned ↔
      other = part ∧ (name, assigned) ∈ table := by
  constructor
  · rintro (⟨_, _, same, member⟩ | same)
    · obtain ⟨keys, tables⟩ := Prod.mk.inj same
      cases tables
      exact ⟨(SectionName.key_injective keys).symm, member⟩
    · exact absurd (congrArg Prod.fst same) (SectionName.key_ne_pathOf known)
  · rintro ⟨rfl, member⟩
    exact .inl ⟨source, table, rfl, member⟩

theorem path_iff {source : Option String} {scalar : Scalar} (known : name ∈ other.settings)
    (own_known : own ∈ part.settings) :
    Assigns (part.pathOf own, .scalar source scalar) other name assigned ↔
      other = part ∧ name = own ∧ assigned = .scalar source scalar := by
  constructor
  · rintro (⟨_, _, same, _⟩ | same)
    · cases congrArg Prod.snd same
    · obtain ⟨paths, values⟩ := Prod.mk.inj same
      obtain ⟨rfl, rfl⟩ := SectionName.pathOf_injective own_known known paths
      exact ⟨rfl, rfl, values.symm⟩
  · rintro ⟨rfl, rfl, rfl⟩
    exact .inr rfl

end Assigns

/-! ### Sources -/

namespace Setting

variable {values : Setting}

theorem sectionEntries_of_lookup {part : SectionName} {source : Option String}
    {entries : List (String × Setting)}
    (found : values.entries.lookup part.key = some (.table source entries)) :
    values.sectionEntries part = entries := by
  rw [sectionEntries, found]

/-- An entry that changes the table of one section gives the settings of that section what it
assigns, if it does so in the table. -/
theorem isUpdated_of_section {values' : Setting} {part : SectionName} {source : Option String}
    {entries : List (String × Setting)} {entry : String × Setting}
    (others : ∀ other : SectionName, other ≠ part →
      values'.entries.lookup other.key = values.entries.lookup other.key)
    (here : values'.entries.lookup part.key = some (.table source entries))
    (elsewhere : ∀ other, ∀ name ∈ other.settings, ∀ value,
      Assigns entry other name value → other = part)
    (updated : ∀ name ∈ part.settings, IsUpdated ((values.sectionEntries part).lookup name)
      (entries.lookup name) (Assigns entry part name)) :
    ∀ other, ∀ name ∈ other.settings,
      IsUpdated (values.given? other name) (values'.given? other name)
        (Assigns entry other name) := by
  intro other name known
  by_cases same : other = part
  · subst same
    rw [given?, given?, sectionEntries_of_lookup here]
    exact updated name known
  · refine .inl ⟨?_, fun value assigns => same (elsewhere other name known value assigns)⟩
    rw [given?, sectionEntries_congr (others other same), given?]

/-- Putting an entry of a source over sectioned values gives each setting what the entry assigns
to it. -/
theorem putAt_spec (sectioned : values.IsSectioned) {entry : String × Setting}
    (settings : IsSettingsEntry entry) :
    (putAt entry.2 (stepsOf entry.1) values).IsSectioned ∧
      ∀ part, ∀ name ∈ part.settings,
        IsUpdated (values.given? part name)
          ((putAt entry.2 (stepsOf entry.1) values).given? part name)
          (Assigns entry part name) := by
  have others {part : SectionName} {value : Setting} {rest : List KeyStep} (other : SectionName)
      (differ : other ≠ part) :
      (putAt value (.key part.key :: rest) values).entries.lookup other.key =
        values.entries.lookup other.key := by
    refine lookup_putAt_of_ne ?_ _ _ _
    rw [part.toLower_key]
    exact fun same => differ (SectionName.key_injective same)
  cases settings with
  | foreign key value foreign =>
    obtain ⟨rest, steps⟩ := KeyExpression.stepsOf_eq_cons key
    have same (part : SectionName) :
        (putAt value (stepsOf key) values).entries.lookup part.key =
          values.entries.lookup part.key := by
      rw [steps]
      exact lookup_putAt_of_ne (Ne.symm (foreign part)) value rest values
    refine ⟨⟨?_, fun part held found => ?_⟩, fun part name known => .inl ⟨?_, fun assigned => ?_⟩⟩
    · simp only [steps]
      exact isTable_putAt value _ rest values
    · exact sectioned.sections part held (same part ▸ found)
    · rw [given?, sectionEntries_congr (same part), given?]
    · exact Assigns.not_foreign foreign known
  | table part source table isSettings =>
    obtain ⟨origin, merged⟩ := sectionEntries_putUnder sectioned part source table
    rw [part.stepsOf_key]
    refine ⟨sectioned.of_section ⟨_, _, rfl⟩ others ⟨_, _, merged⟩,
      isUpdated_of_section others merged (fun other name known value assigns => ?_)
        fun name known => ?_⟩
    · exact ((Assigns.table_iff known).mp assigns).1
    · refine (lookup_putEntries isSettings (values.sectionEntries part) known).congr fun value => ?_
      exact ⟨fun member => (Assigns.table_iff known).mpr ⟨rfl, member⟩,
        fun assigns => ((Assigns.table_iff known).mp assigns).2⟩
  | path part own source scalar own_known =>
    -- The path goes through the section, or makes a table for it, and sets one key there.
    have merged : ∃ origin, (putAt (.scalar source scalar) [.key part.key, .key own]
        values).entries.lookup part.key =
          some (.table origin (putUnder own (values.sectionEntries part)
            (.scalar source scalar))) := by
      rw [← entries_section sectioned]
      simp only [putAt, part.toLower_key]
      exact ⟨_, lookup_insertEntry_self _ _ _⟩
    obtain ⟨origin, merged⟩ := merged
    rw [part.stepsOf_pathOf own own_known]
    refine ⟨sectioned.of_section ⟨_, _, rfl⟩ others ⟨_, _, merged⟩,
      isUpdated_of_section others merged (fun other name known value assigns => ?_)
        fun name known => ?_⟩
    · exact ((Assigns.path_iff known own_known).mp assigns).1
    · have set := lookup_putUnder_scalar own (values.sectionEntries part) source scalar
      have lower := part.toLower_of_mem_settings own own_known
      rw [lower] at set
      by_cases here : name = own
      · rw [here]
        exact .inr ⟨.scalar source scalar, .inr rfl, set⟩
      · refine .inl ⟨lookup_putUnder_of_ne (by rwa [lower]) _ _, fun value assigns => ?_⟩
        exact here ((Assigns.path_iff known own_known).mp assigns).2.1

/-- Putting a source over sectioned values gives each setting what an entry of the source assigns
to it, and leaves a setting that none of them assigns. -/
theorem putSource_spec (sectioned : values.IsSectioned) {entries : List (String × Setting)}
    (settings : ∀ entry ∈ entries, IsSettingsEntry entry) :
    (values.putSource entries).IsSectioned ∧
      ∀ part, ∀ name ∈ part.settings,
        IsUpdated (values.given? part name) ((values.putSource entries).given? part name)
          fun value => ∃ entry ∈ entries, Assigns entry part name value := by
  induction entries generalizing values with
  | nil => exact ⟨sectioned, fun part name _ => .inl ⟨rfl, by simp⟩⟩
  | cons entry rest ih =>
    obtain ⟨first, others⟩ := List.forall_mem_cons.mp settings
    obtain ⟨sectioned, here⟩ := putAt_spec sectioned first
    obtain ⟨afterwards, further⟩ := ih sectioned others
    refine ⟨afterwards, fun part name known => ?_⟩
    refine ((here part name known).trans (further part name known)).congr fun value => ?_
    simp only [List.mem_cons, exists_eq_or_imp]

end Setting

end SchemaInterfaces
