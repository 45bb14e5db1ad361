import Mathlib.Data.List.Forall2
import SchemaInterfaces.Proofs.Settings.Layers
import SchemaInterfaces.Proofs.Settings.Sources
import SchemaInterfaces.Proofs.Text.Lossy

/-!
# Layers of the sources

A document gives a layer in the tables of its sections, variables give one by the paths in their
names, and a file gives the layer of its document, or nothing where there is no file. Settings that
are loaded from sources with known layers are the settings of these layers
(`loadSettings_of_layers`).
-/
namespace SchemaInterfaces

/-- The single value that a document is. -/
def Document.scalar? : Document → Option Scalar
  | .null => some .unset
  | .boolean value => some (.boolean value)
  | .number value => some (.ofNumber value)
  | .text value => some (.text value)
  | .sequence _ => none
  | .mapping _ => none

namespace Setting

theorem ofDocument_of_scalar? {document : Document} {scalar : Scalar}
    (single : document.scalar? = some scalar) (source : String) :
    ofDocument source document = .scalar source scalar := by
  cases document with
  | null | boolean | number | text =>
    cases single
    rfl
  | sequence | mapping => cases single

theorem mem_ofEntries_iff {source : String} {entries : List (String × Document)}
    {entry : String × Setting} :
    entry ∈ ofEntries source entries ↔
      ∃ key document, (key, document) ∈ entries ∧ entry = (key, ofDocument source document) := by
  induction entries with
  | nil => simp [ofEntries]
  | cons first rest ih =>
    obtain ⟨key, document⟩ := first
    rw [ofEntries, List.mem_cons, ih]
    constructor
    · rintro (rfl | ⟨key', document', member, rfl⟩)
      · exact ⟨key, document, List.mem_cons_self, rfl⟩
      · exact ⟨key', document', List.mem_cons_of_mem _ member, rfl⟩
    · rintro ⟨key', document', member, rfl⟩
      rcases List.mem_cons.mp member with same | member
      · cases same
        exact .inl rfl
      · exact .inr ⟨key', document', member, rfl⟩

end Setting

namespace Layer

variable {layer : Layer}

/-! ### Documents -/

/-- A table of a section gives its settings the values of a layer. -/
def IsTable (layer : Layer) (part : SectionName) (table : List (String × Document)) : Prop :=
  ∀ entry ∈ table, Text.toLower entry.1 ∈ part.settings →
    ∃ scalar, entry.2.scalar? = some scalar ∧ layer.value? part entry.1 = some scalar

/-- A document gives a layer: its entries are tables of the sections with the values of the layer,
or about something else, and every value of the layer is there. -/
structure IsWritten (layer : Layer) (entries : List (String × Document)) : Prop where
  sound : ∀ entry ∈ entries, IsForeignKey entry.1 ∨
    ∃ part table, entry = (SectionName.key part, .mapping table) ∧ layer.IsTable part table
  complete : ∀ part name scalar, layer.value? part name = some scalar →
    ∃ table, (part.key, .mapping table) ∈ entries ∧ ∃ document, (name, document) ∈ table

theorem IsTable.isSettingsTable {part : SectionName} {table : List (String × Document)}
    (isTable : layer.IsTable part table) (source : String) :
    IsSettingsTable part (Setting.ofEntries source table) := by
  intro entry member known
  obtain ⟨key, document, inside, rfl⟩ := Setting.mem_ofEntries_iff.mp member
  obtain ⟨scalar, single, given⟩ := isTable (key, document) inside known
  exact ⟨mem_settings_of_value? given, some source, scalar,
    Setting.ofDocument_of_scalar? single source⟩

theorem IsWritten.isSaid {entries : List (String × Document)} (written : layer.IsWritten entries)
    (source : String) : layer.IsSaid source (Setting.ofEntries source entries) := by
  refine ⟨fun entry member => ?_, fun entry member part name known value assigns => ?_,
    fun part name scalar given => ?_⟩
  · obtain ⟨key, document, inside, rfl⟩ := Setting.mem_ofEntries_iff.mp member
    rcases written.sound _ inside with foreign | ⟨part, table, same, isTable⟩
    · exact .foreign _ _ foreign
    · cases same
      rw [Setting.ofDocument]
      exact .table part source _ (isTable.isSettingsTable source)
  · obtain ⟨key, document, inside, rfl⟩ := Setting.mem_ofEntries_iff.mp member
    rcases written.sound _ inside with foreign | ⟨own, table, same, isTable⟩
    · exact absurd assigns (Assigns.not_foreign foreign known)
    · cases same
      rw [Setting.ofDocument] at assigns
      obtain ⟨rfl, here⟩ := (Assigns.table_iff known).mp assigns
      obtain ⟨key, document, inside, same⟩ := Setting.mem_ofEntries_iff.mp here
      cases same
      obtain ⟨scalar, single, given⟩ :=
        isTable _ inside (by rwa [part.toLower_of_mem_settings name known])
      exact ⟨scalar, Setting.ofDocument_of_scalar? single source, given⟩
  · obtain ⟨table, member, document, inside⟩ := written.complete part name scalar given
    refine ⟨_, Setting.mem_ofEntries_iff.mpr ⟨_, _, member, rfl⟩,
      Setting.ofDocument source document, .inl ⟨source, Setting.ofEntries source table, ?_, ?_⟩⟩
    · rw [Setting.ofDocument]
    · exact Setting.mem_ofEntries_iff.mpr ⟨_, _, inside, rfl⟩

/-! ### Variables -/

/-- Variables give a layer: each of them is about something else, or the path of a setting with the
value of the layer, and every value of the layer is there. -/
structure IsAssigned (layer : Layer) (assignments : List (String × String)) : Prop where
  sound : ∀ assignment ∈ assignments, ∀ key, Variable.key? assignment.1 = some key →
    IsForeignKey key ∨ ∃ part name, key = SectionName.pathOf part name ∧
      layer.value? part name = some (Variable.value assignment.2)
  complete : ∀ part name scalar, layer.value? part name = some scalar →
    ∃ assignment ∈ assignments, Variable.key? assignment.1 = some (part.pathOf name)

theorem exists_assignment_of_mem_entries {assignments : List (String × String)}
    {entry : String × Setting} (member : entry ∈ Variable.entries assignments) :
    ∃ assignment ∈ assignments, ∃ key, Variable.key? assignment.1 = some key ∧
      (key, Setting.scalar (some Variable.source) (Variable.value assignment.2)) = entry := by
  have pair := mem_of_mem_entriesOf member
  simpa only [List.mem_filterMap, Option.map_eq_some_iff] using pair

/-- A key that variables have gets a value from one of them. -/
theorem exists_entry_of_mem {assignments : List (String × String)} {assignment : String × String}
    {key : String} (member : assignment ∈ assignments)
    (read : Variable.key? assignment.1 = some key) :
    ∃ value, (key, value) ∈ Variable.entries assignments := by
  refine exists_mem_entriesOf (List.mem_map.mpr
    ⟨(key, .scalar (some Variable.source) (Variable.value assignment.2)),
      List.mem_filterMap.mpr ⟨assignment, member, ?_⟩, rfl⟩)
  exact Option.map_eq_some_iff.mpr ⟨key, read, rfl⟩

theorem IsAssigned.isSaid {assignments : List (String × String)}
    (assigned : layer.IsAssigned assignments) :
    layer.IsSaid Variable.source (Variable.entries assignments) := by
  refine ⟨fun entry member => ?_, fun entry member part name known value assigns => ?_,
    fun part name scalar given => ?_⟩
  · obtain ⟨assignment, inside, key, read, rfl⟩ := exists_assignment_of_mem_entries member
    rcases assigned.sound assignment inside key read with foreign | ⟨part, name, rfl, given⟩
    · exact .foreign _ _ foreign
    · exact .path part name _ _ (mem_settings_of_value? given)
  · obtain ⟨assignment, inside, key, read, rfl⟩ := exists_assignment_of_mem_entries member
    rcases assigned.sound assignment inside key read with foreign | ⟨own, name', rfl, given⟩
    · exact absurd assigns (Assigns.not_foreign foreign known)
    · obtain ⟨rfl, rfl, rfl⟩ := (Assigns.path_iff known (mem_settings_of_value? given)).mp assigns
      exact ⟨_, rfl, given⟩
  · obtain ⟨assignment, inside, read⟩ := assigned.complete part name scalar given
    obtain ⟨value, member⟩ := exists_entry_of_mem inside read
    exact ⟨_, member, value, .inr rfl⟩

/-! ### Nothing -/

theorem value?_nothing (part : SectionName) (name : String) : value? {} part name = none := by
  unfold value?
  split <;> rfl

theorem isSaid_nothing : IsSaid {} none [] where
  settings := by simp
  sound := by simp
  complete part name scalar given := by
    rw [value?_nothing] at given
    cases given

/-- Variables that are about no settings give none. -/
theorem isAssigned_nothing {assignments : List (String × String)}
    (noKey : ∀ assignment ∈ assignments, Variable.key? assignment.1 = none) :
    IsAssigned {} assignments where
  sound assignment member key read := by
    rw [noKey assignment member] at read
    cases read
  complete part name scalar given := by
    rw [value?_nothing] at given
    cases given

end Layer

/-! ### Files -/

/-- A path gives a layer. Where a file of settings is found for it, the file has a known format and
its text says what the layer has; where none is found, the layer is empty. -/
inductive FileTree.Gives (tree : FileTree) (surroundings : Surroundings) (path : String) :
    Layer → Prop where
  | absent (none : tree.settingsFile? (surroundings.hashes .formats) path = none) :
      Gives tree surroundings path {}
  | present {layer : Layer} {found text : String} {format : SettingsFormat}
      {entries : List (String × Document)}
      (file : tree.settingsFile? (surroundings.hashes .formats) path = some (found, text.toUTF8))
      (known : SettingsFormat.ofPath? found = some format)
      (parsed : format.entries? surroundings.readers (Text.withoutMark text) = some entries)
      (written : layer.IsWritten entries) : Gives tree surroundings path layer

/-- The user's own settings give a layer. Where nothing is at their path, they give nothing. -/
inductive FileTree.GivesUser (tree : FileTree) (surroundings : Surroundings) : Layer → Prop where
  | unknown (none : surroundings.userSettings = none) : GivesUser tree surroundings {}
  | absent {path : String} (own : surroundings.userSettings = some path)
      (nothing : (tree.find path).isOk = false) : GivesUser tree surroundings {}
  | present {path : String} {layer : Layer} (own : surroundings.userSettings = some path)
      (there : (tree.find path).isOk = true) (gives : tree.Gives surroundings path layer) :
      GivesUser tree surroundings layer

/-- The settings that are asked for give a layer. Their file has to be there. -/
inductive FileTree.GivesExplicit (tree : FileTree) (surroundings : Surroundings) :
    Option String → Layer → Prop where
  | none : GivesExplicit tree surroundings none {}
  | present {path : String} {layer : Layer}
      (there : (tree.settingsFile? (surroundings.hashes .formats) path).isSome = true)
      (gives : tree.Gives surroundings path layer) :
      GivesExplicit tree surroundings (some path) layer

/-- The sources at their usual places give layers. -/
structure FileTree.GivesUsual (tree : FileTree) (surroundings : Surroundings)
    (plain hidden nested user : Layer) : Prop where
  plain : tree.Gives surroundings "typegen.toml" plain
  hidden : tree.Gives surroundings ".typegen.toml" hidden
  nested : tree.Gives surroundings "config/typegen.toml" nested
  user : tree.GivesUser surroundings user

/-- What a source says has a layer. -/
def Said.Has (said : Said) (layer : Layer) : Prop :=
  ∃ source entries, said = .ok entries ∧ layer.IsSaid source entries

section

variable {surroundings : Surroundings} {tree : FileTree} {layer : Layer}

theorem has_nothing : Said.Has (.ok []) {} := ⟨none, [], rfl, Layer.isSaid_nothing⟩

theorem has_sayBytes {path text : String} {format : SettingsFormat}
    {entries : List (String × Document)}
    (parsed : format.entries? surroundings.readers (Text.withoutMark text) = some entries)
    (written : layer.IsWritten entries) :
    (sayBytes surroundings tree path format text.toUTF8).Has layer := by
  refine ⟨_, _, ?_, written.isSaid (Path.relativeTo (Path.join true tree.here) path)⟩
  rw [sayBytes, Text.ofBytesLossy_toUTF8]
  simp only [parsed]

theorem has_sayOptional {path : String} (gives : tree.Gives surroundings path layer) :
    (sayOptional surroundings tree path).Has layer := by
  rw [sayOptional]
  cases gives with
  | absent none =>
    rw [none]
    exact has_nothing
  | present file known parsed written =>
    rw [file, sayFound, known]
    exact has_sayBytes parsed written

theorem has_sayUser (gives : tree.GivesUser surroundings layer) :
    (sayUser surroundings tree).Has layer := by
  rw [sayUser]
  cases gives with
  | unknown none =>
    rw [none]
    exact has_nothing
  | absent own nothing =>
    simp only [own, nothing, Bool.false_eq_true, if_false]
    exact has_nothing
  | present own there gives =>
    simp only [own, there, if_true]
    exact has_sayOptional gives

theorem has_sayExplicit {explicit : Option String}
    (gives : tree.GivesExplicit surroundings explicit layer) :
    (sayExplicit surroundings tree explicit).Has layer := by
  cases gives with
  | none => exact has_nothing
  | present there gives =>
    cases gives with
    | absent none =>
      rw [none] at there
      cases there
    | present file known parsed written =>
      rw [sayExplicit, sayRequired, file]
      simp only [known]
      exact has_sayBytes parsed written

/-- Sources with layers are merged to values that hold the layers, in whatever order the entries of
each source are met. -/
theorem mergeSaid_of_layers {sources : List Said} {given : List Layer}
    (has : List.Forall₂ Said.Has sources given) (hashes : Nat → List String → String → Nat)
    {values : Setting} {layers : List Layer} (holds : Holds values layers) :
    ∃ merged, mergeSaid hashes values sources = .ok merged ∧ Holds merged (layers ++ given) := by
  induction has generalizing hashes values layers with
  | nil => exact ⟨values, rfl, by rwa [List.append_nil]⟩
  | @cons said layer sources given first _ ih =>
    obtain ⟨source, entries, rfl, isSaid⟩ := first
    obtain ⟨merged, merges, holds⟩ :=
      ih (fun number => hashes (number + 1)) (holds.putSource isSaid (hashes 0))
    exact ⟨merged, merges, by rwa [List.append_assoc] at holds⟩

variable {explicit : Option String} {plain hidden nested user asked environment : Layer}
  (usual : tree.GivesUsual surroundings plain hidden nested user)
  (askedGives : tree.GivesExplicit surroundings explicit asked)
  (assigned : environment.IsAssigned surroundings.assignments)

include usual askedGives assigned

/-- Each source says what its layer has. -/
theorem has_saySources :
    List.Forall₂ Said.Has (saySources surroundings tree explicit)
      [plain, hidden, nested, user, asked, environment] :=
  .cons (has_sayOptional usual.plain) <| .cons (has_sayOptional usual.hidden) <|
    .cons (has_sayOptional usual.nested) <| .cons (has_sayUser usual.user) <|
    .cons (has_sayExplicit askedGives) <| .cons ⟨_, _, rfl, assigned.isSaid⟩ .nil

/-- Settings that are loaded from sources with layers are the settings of these layers. -/
theorem loadSettings_of_layers :
    (loadSettings surroundings explicit : StateM FileTree _) tree =
      (.ok (Layer.settings [plain, hidden, nested, user, asked, environment]), tree) := by
  obtain ⟨merged, merges, holds⟩ :=
    mergeSaid_of_layers (has_saySources usual askedGives assigned)
    (fun number path => surroundings.hashes (.source number path)) Holds.nothing
  rw [loadSettings_run, settle, merges]
  have settled := holds.ofValues fun path => surroundings.hashes (.merged path)
  exact congrArg (·, tree) settled

end

end SchemaInterfaces
