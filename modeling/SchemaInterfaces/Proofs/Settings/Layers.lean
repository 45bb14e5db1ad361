import SchemaInterfaces.Proofs.Settings.Conversion

/-!
# Layers of settings

A layer is what one source gives: a value for some of the settings. Sources are laid over one
another, and of several layers that give a setting the last one counts, whatever they say about the
other settings (`Layer.last?`). Merging the sources gives just these values (`Holds.putSource`), and
their conversion gives the settings (`Holds.ofValues`).
-/
namespace SchemaInterfaces

/-- What one source gives for the settings. -/
structure Layer where
  inputPath : Option String := none
  pointer : Option String := none
  rootKey : Option String := none
  banner : Option Bool := none
  outputPath : Option String := none
  indent : Option Nat := none
  exported : Option Bool := none
  docs : Option Bool := none
  deriving DecidableEq, Repr

namespace Layer

/-- The value of a setting by its section and key, of the kind that the setting has. -/
def value? (layer : Layer) (part : SectionName) (name : String) : Option Scalar :=
  match part, name with
  | .input, "path" => layer.inputPath.map .text
  | .input, "pointer" => layer.pointer.map .text
  | .generate, "root_key" => layer.rootKey.map .text
  | .generate, "banner" => layer.banner.map .boolean
  | .output, "path" => layer.outputPath.map .text
  | .output, "indent" => layer.indent.map fun n : Nat => .integer n
  | .output, "export" => layer.exported.map .boolean
  | .output, "docs" => layer.docs.map .boolean
  | _, _ => none

/-- The last of several layers that gives a setting. -/
def last? {α : Type} (layers : List Layer) (setting : Layer → Option α) : Option α :=
  (layers.filterMap setting).getLast?

/-- The settings that come of several layers, the later ones over the earlier: each setting is what
the last layer gives for it, or its default. -/
def settings (layers : List Layer) : Settings :=
  let defaults : Settings := {}
  { inputPath := (last? layers inputPath).getD defaults.inputPath
    pointer := (last? layers pointer).or defaults.pointer
    rootKey := (last? layers rootKey).getD defaults.rootKey
    banner := (last? layers banner).getD defaults.banner
    outputPath := (last? layers outputPath).getD defaults.outputPath
    indent := (last? layers indent).getD defaults.indent
    exported := (last? layers exported).getD defaults.exported
    docs := (last? layers docs).getD defaults.docs }

theorem last?_append {α : Type} (layers : List Layer) (layer : Layer) (setting : Layer → Option α) :
    last? (layers ++ [layer]) setting = (setting layer).or (last? layers setting) := by
  rw [last?, List.filterMap_append, List.getLast?_append, last?]
  cases h : setting layer <;> simp [h]

/-- The value of a setting in the last layer that gives it. -/
def lastValue? (layers : List Layer) (part : SectionName) (name : String) : Option Scalar :=
  last? layers fun layer => layer.value? part name

theorem lastValue?_eq {α : Type} (layers : List Layer) {part : SectionName} {name : String}
    {setting : Layer → Option α} {kind : α → Scalar}
    (own : ∀ layer, value? layer part name = (setting layer).map kind) :
    lastValue? layers part name = (last? layers setting).map kind := by
  rw [lastValue?, last?, last?, ← List.getLast?_map, List.map_filterMap, funext own]

/-- A source says what a layer has, and nothing else about the settings. -/
structure IsSaid (layer : Layer) (source : Option String) (entries : List (String × Setting)) :
    Prop where
  settings : ∀ entry ∈ entries, IsSettingsEntry entry
  /-- What the source assigns to a setting is the value of the layer. -/
  sound : ∀ entry ∈ entries, ∀ part, ∀ name ∈ part.settings, ∀ value,
    Assigns entry part name value → ∃ scalar, value = .scalar source scalar ∧
      layer.value? part name = some scalar
  /-- Every value of the layer is assigned. -/
  complete : ∀ part name scalar, layer.value? part name = some scalar →
    ∃ entry ∈ entries, ∃ value, Assigns entry part name value

theorem mem_settings_of_value? {layer : Layer} {part : SectionName} {name : String}
    {scalar : Scalar} (given : layer.value? part name = some scalar) : name ∈ part.settings := by
  unfold value? at given
  split at given <;> first | decide | cases given

/-- A source says the same in whatever order its entries are met. -/
theorem IsSaid.inOrder {layer : Layer} {source : Option String} {entries : List (String × Setting)}
    (said : layer.IsSaid source entries) (hashes : List String → String → Nat) :
    layer.IsSaid source (Setting.inOrder hashes entries) where
  settings := isSettingsEntry_of_mem_inOrder _ said.settings
  sound entry member part name known value assigns := by
    obtain ⟨inner, inside, assigns⟩ :=
      (assigns_inOrder_iff said.settings known value).mp ⟨entry, member, assigns⟩
    exact said.sound inner inside part name known value assigns
  complete part name scalar given := by
    obtain ⟨entry, member, value, assigns⟩ := said.complete part name scalar given
    obtain ⟨inner, inside, assigns⟩ := (assigns_inOrder_iff said.settings
      (mem_settings_of_value? given) value).mpr ⟨entry, member, assigns⟩
    exact ⟨inner, inside, value, assigns⟩

end Layer

/-- Merged values hold what the last of several layers gives for each setting. -/
structure Holds (values : Setting) (layers : List Layer) : Prop where
  sectioned : values.IsSectioned
  unset : ∀ part, ∀ name ∈ part.settings, Layer.lastValue? layers part name = none →
    values.given? part name = none
  set : ∀ part, ∀ name ∈ part.settings, ∀ scalar, Layer.lastValue? layers part name = some scalar →
    ∃ source, values.given? part name = some (.scalar source scalar)

namespace Holds

variable {values : Setting} {layers : List Layer}

theorem nothing : Holds (.table none []) [] where
  sectioned := Setting.isSectioned_empty
  unset _ _ _ _ := rfl
  set _ _ _ _ given := by cases given

/-- Putting a source over merged values adds its layer at the end. -/
theorem putSource (holds : Holds values layers) {layer : Layer} {source : Option String}
    {entries : List (String × Setting)} (said : layer.IsSaid source entries)
    (hashes : List String → String → Nat) :
    Holds (values.putSource (Setting.inOrder hashes entries)) (layers ++ [layer]) := by
  replace said := said.inOrder hashes
  obtain ⟨sectioned, updated⟩ := Setting.putSource_spec holds.sectioned said.settings
  have last (part : SectionName) (name : String) :
      Layer.lastValue? (layers ++ [layer]) part name =
        (layer.value? part name).or (Layer.lastValue? layers part name) :=
    Layer.last?_append layers layer _
  refine ⟨sectioned, fun part name known unset => ?_, fun part name known scalar set => ?_⟩
  · rw [last, Option.or_eq_none_iff] at unset
    rcases updated part name known with ⟨kept, _⟩ | ⟨value, ⟨entry, member, assigns⟩, _⟩
    · rw [kept, holds.unset part name known unset.2]
    · obtain ⟨_, _, given⟩ := said.sound entry member part name known value assigns
      rw [unset.1] at given
      cases given
  · rw [last] at set
    rcases updated part name known with ⟨kept, none⟩ | ⟨value, ⟨entry, member, assigns⟩, now⟩
    · cases given : layer.value? part name with
      | none =>
        rw [given, Option.none_or] at set
        obtain ⟨source, held⟩ := holds.set part name known scalar set
        exact ⟨source, kept.trans held⟩
      | some own =>
        obtain ⟨entry, member, value, assigns⟩ := said.complete part name own given
        exact absurd ⟨entry, member, assigns⟩ (none value)
    · obtain ⟨own, rfl, given⟩ := said.sound entry member part name known value assigns
      rw [given, Option.some_or, Option.some.injEq] at set
      exact ⟨source, by rw [now, set]⟩

/-! ### Conversion -/

/-- A setting is converted to what the last layer gives for it. -/
theorem setting {α β : Type} (holds : Holds values layers) (part : SectionName) (name : String)
    (position : Nat) (known : name ∈ part.settings) (field : Layer → Option α) (kind : α → Scalar)
    (own : ∀ layer, Layer.value? layer part name = (field layer).map kind)
    (convert : Setting → Except Mismatch β) (result : α → β)
    (converts : ∀ source value, convert (.scalar source (kind value)) = .ok (result value))
    (default : β) :
    (Section.named (values.sectionEntries part)).setting part name position default convert =
      .ok (((Layer.last? layers field).map result).getD default) := by
  have last := Layer.lastValue?_eq layers own
  rw [Section.setting, Section.value?]
  cases given : Layer.last? layers field with
  | none =>
    rw [given] at last
    have unset := holds.unset part name known last
    rw [Setting.given?] at unset
    rw [unset]
    rfl
  | some value =>
    rw [given] at last
    obtain ⟨source, held⟩ := holds.set part name known _ last
    rw [Setting.given?] at held
    rw [held]
    simp only [Option.map_some, converts]
    rfl

/-- The settings of merged values are those of their layers. -/
theorem ofValues (holds : Holds values layers) (hashes : List String → String → Nat) :
    Settings.ofValues hashes values = .ok (Layer.settings layers) := by
  have natural (source : Option String) (n : Nat) :
      Setting.natural (.scalar source (.integer n)) = .ok n := by
    rw [Setting.natural, if_neg (by omega), Int.toNat_natCast]
  have inputPath := holds.setting .input "path" 0 (by decide) Layer.inputPath .text (fun _ => rfl)
    Setting.text id fun _ _ => rfl
  have pointer := holds.setting .input "pointer" 1 (by decide) Layer.pointer .text (fun _ => rfl)
    Setting.text? some fun _ _ => rfl
  have rootKey := holds.setting .generate "root_key" 0 (by decide) Layer.rootKey .text
    (fun _ => rfl) Setting.text id fun _ _ => rfl
  have banner := holds.setting .generate "banner" 1 (by decide) Layer.banner .boolean
    (fun _ => rfl) Setting.boolean id fun _ _ => rfl
  have outputPath := holds.setting .output "path" 0 (by decide) Layer.outputPath .text
    (fun _ => rfl) Setting.text id fun _ _ => rfl
  have indent := holds.setting .output "indent" 1 (by decide) Layer.indent
    (fun n : Nat => .integer n) (fun _ => rfl) Setting.natural id natural
  have exported := holds.setting .output "export" 2 (by decide) Layer.exported .boolean
    (fun _ => rfl) Setting.boolean id fun _ _ => rfl
  have docs := holds.setting .output "docs" 3 (by decide) Layer.docs .boolean (fun _ => rfl)
    Setting.boolean id fun _ _ => rfl
  rw [Settings.ofValues_eq_ok_iff]
  unfold Settings.convert Layer.settings
  simp only [holds.sectioned.find, bind, Except.bind, pure, Except.pure, inputPath, pointer,
    rootKey, banner, outputPath, indent, exported, docs, Option.map_id_fun, id]
  cases Layer.last? layers Layer.pointer <;> rfl

end Holds

end SchemaInterfaces
