import SchemaInterfaces.Proofs.Settings.Offers

/-!
# Sources without ambiguity

Each run goes through tables in an order of its own, so a source that gives one setting two values
leaves it to the order which of them counts. Where no source does, and the files that stand in for a
missing one have one format, every run loads the same settings or none
(`loadSettings_toOption_of_isUnambiguous`), and a single fault is told in the same words
(`loadSettings_of_isUnambiguous`).
-/
namespace SchemaInterfaces

/-! ### The file of a source -/

namespace FileTree

variable {tree : FileTree} {asked : String}

/-- A path finds its own file, or the files that stand in for it have one format. -/
def HasOneStandIn (tree : FileTree) (asked : String) : Prop :=
  (tree.file? asked).isSome = true ∨
    ∀ file ∈ SettingsFormat.extensions, ∀ other ∈ SettingsFormat.extensions,
      (tree.file? (Path.normal asked ++ "." ++ file.1)).isSome = true →
      (tree.file? (Path.normal asked ++ "." ++ other.1)).isSome = true → file.2 = other.2

/-- What is found under a path with an extension. -/
def standIn? (tree : FileTree) (asked : String) (file : String × SettingsFormat) :
    Option (String × ByteArray) :=
  (tree.file? (Path.normal asked ++ "." ++ file.1)).map (Path.normal asked ++ "." ++ file.1, ·)

theorem settingsFile?_eq (tree : FileTree) (hash : String → Nat) (asked : String) :
    tree.settingsFile? hash asked = ((tree.file? asked).map (asked, ·)).or
      (if (Path.fileName? asked).isNone then none else
        (visited hash (SettingsFormat.extensions.map fun file => (file.2.name, file))).findSome?
          fun entry => tree.standIn? asked entry.2) := by
  rw [settingsFile?, settingsPaths, firstFile?_cons]
  split
  · rfl
  · rw [firstFile?, List.findSome?_map, SettingsFormat.extensionsByHash, List.findSome?_map]
    rfl

/-- Files of one format stand in under one name of a format, and under no other. -/
theorem exists_name_of_standIns
    (same : ∀ file ∈ SettingsFormat.extensions, ∀ other ∈ SettingsFormat.extensions,
      (tree.file? (Path.normal asked ++ "." ++ file.1)).isSome = true →
      (tree.file? (Path.normal asked ++ "." ++ other.1)).isSome = true → file.2 = other.2) :
    ∃ name, ∀ entry ∈ SettingsFormat.extensions.map fun file => (file.2.name, file),
      entry.1 ≠ name → tree.standIn? asked entry.2 = none := by
  have nothing {file : String × SettingsFormat}
      (free : ¬ (tree.file? (Path.normal asked ++ "." ++ file.1)).isSome = true) :
      tree.standIn? asked file = none := by
    rw [standIn?, Option.not_isSome_iff_eq_none.mp free, Option.map_none]
  by_cases there : ∃ file ∈ SettingsFormat.extensions,
      (tree.file? (Path.normal asked ++ "." ++ file.1)).isSome = true
  · obtain ⟨file, known, held⟩ := there
    refine ⟨file.2.name, fun entry member differ => ?_⟩
    obtain ⟨other, known', rfl⟩ := List.mem_map.mp member
    exact nothing fun held' =>
      differ (congrArg SettingsFormat.name (same other known' file known held' held))
  · refine ⟨"", fun entry member _ => ?_⟩
    obtain ⟨other, known', rfl⟩ := List.mem_map.mp member
    exact nothing fun held => there ⟨other, known', held⟩

/-- Every order finds the same file. -/
theorem HasOneStandIn.settingsFile?_congr (single : tree.HasOneStandIn asked)
    (hash other : String → Nat) :
    tree.settingsFile? hash asked = tree.settingsFile? other asked := by
  rw [settingsFile?_eq, settingsFile?_eq]
  rcases single with own | same
  · obtain ⟨content, held⟩ := Option.isSome_iff_exists.mp own
    rw [held, Option.map_some, Option.some_or, Option.some_or]
  · obtain ⟨name, only⟩ := exists_name_of_standIns same
    rw [findSome?_visited hash only, findSome?_visited other only]

end FileTree

/-! ### The values of a source -/

/-- A source says something about the settings in the plain way, and of each at most one thing. -/
structure IsDecided (entries : List (String × Setting)) : Prop where
  settings : ∀ entry ∈ entries, IsSettingsEntry entry
  single : ∀ part, ∀ name ∈ part.settings, ∀ value value',
    (∃ entry ∈ entries, Assigns entry part name value) →
    (∃ entry ∈ entries, Assigns entry part name value') → value = value'

/-- Merged values that give every setting the same value. -/
structure Setting.Alike (values values' : Setting) : Prop where
  left : values.IsSectioned
  right : values'.IsSectioned
  given : ∀ part, ∀ name ∈ part.settings, values.given? part name = values'.given? part name

namespace Setting.Alike

variable {values values' : Setting}

/-- A source gives the same value to each setting in whatever order its entries are met. -/
theorem putSource (alike : values.Alike values') {entries : List (String × Setting)}
    (decided : IsDecided entries) (hashes others : List String → String → Nat) :
    (values.putSource (inOrder hashes entries)).Alike
      (values'.putSource (inOrder others entries)) := by
  obtain ⟨left, updated⟩ := putSource_spec alike.left
    (isSettingsEntry_of_mem_inOrder hashes decided.settings)
  obtain ⟨right, updated'⟩ := putSource_spec alike.right
    (isSettingsEntry_of_mem_inOrder others decided.settings)
  refine ⟨left, right, fun part name known => ?_⟩
  have first := (updated part name known).congr (assigns_inOrder_iff decided.settings known)
  have second := (updated' part name known).congr (assigns_inOrder_iff decided.settings known)
  rcases first with ⟨kept, none⟩ | ⟨value, assigned, now⟩
  · rcases second with ⟨kept', _⟩ | ⟨value, assigned, _⟩
    · rw [kept, kept', alike.given part name known]
    · exact absurd assigned (none value)
  · rcases second with ⟨_, none⟩ | ⟨value', assigned', now'⟩
    · exact absurd assigned (none value)
    · rw [now, now', decided.single part name known value value' assigned assigned']

theorem setting {α : Type} (alike : values.Alike values') {part : SectionName} {name : String}
    (known : name ∈ part.settings) (position : Nat) (default : α)
    (convert : Setting → Except Mismatch α) :
    (Section.named (values.sectionEntries part)).setting part name position default convert =
      (Section.named (values'.sectionEntries part)).setting part name position default convert := by
  have same := alike.given part name known
  rw [given?, given?] at same
  rw [Section.setting, Section.setting, Section.value?, Section.value?, same]

theorem convert (alike : values.Alike values') :
    Settings.convert values = Settings.convert values' := by
  unfold Settings.convert
  simp only [alike.left.find, alike.right.find, bind, Except.bind]
  rw [alike.setting (by decide) 0 _ Setting.text, alike.setting (by decide) 1 _ Setting.text?,
    alike.setting (by decide) 0 _ Setting.text, alike.setting (by decide) 1 _ Setting.boolean,
    alike.setting (by decide) 0 _ Setting.text, alike.setting (by decide) 1 _ Setting.natural,
    alike.setting (by decide) 2 _ Setting.boolean, alike.setting (by decide) 3 _ Setting.boolean]

theorem checks (alike : values.Alike values') (hashes : List String → String → Nat) :
    Settings.checks hashes values = Settings.checks hashes values' := by
  refine List.map_congr_left fun part _ => ?_
  have same : (Section.named (values.sectionEntries part)).checks part =
      (Section.named (values'.sectionEntries part)).checks part := by
    refine List.map_congr_left fun ((name, kind), position) member => ?_
    have known : name ∈ part.settings := List.mem_map.mpr
      ⟨(name, kind), List.fst_mem_of_mem_zipIdx member, rfl⟩
    exact congrArg (name, ·) (alike.setting known position () kind.check)
  rw [alike.left.find, alike.right.find]
  simp only [Except.bind, Section.check, same]

theorem ofValues (alike : values.Alike values') (hashes : List String → String → Nat) :
    Settings.ofValues hashes values = Settings.ofValues hashes values' := by
  rw [Settings.ofValues, Settings.ofValues, alike.checks, alike.convert]

end Setting.Alike

/-! ### Loading in any order -/

theorem toOption_eq_iff {ε α : Type} {a b : Except ε α} :
    a.toOption = b.toOption ↔ ∀ value, a = .ok value ↔ b = .ok value := by
  constructor
  · intro same value
    cases a <;> cases b <;> simp_all [Except.toOption]
  · intro same
    cases a with
    | ok value => rw [(same value).mp rfl]
    | error error =>
      cases b with
      | ok value => cases (same value).mpr rfl
      | error error => rfl

section

variable {sources : List Said} {surroundings : Surroundings} {explicit : Option String}
  {tree : FileTree}

/-- Sources without ambiguity are put over one another in any two orders, with values that are
alike, or fail with one error. -/
theorem mergeSaid_of_isDecided
    (decided : ∀ entries, Except.ok entries ∈ sources → IsDecided entries)
    (hashes others : Nat → List String → String → Nat) {values values' : Setting}
    (alike : values.Alike values') :
    (∃ error, mergeSaid hashes values sources = .error error ∧
        mergeSaid others values' sources = .error error) ∨
      ∃ merged merged', mergeSaid hashes values sources = .ok merged ∧
        mergeSaid others values' sources = .ok merged' ∧ merged.Alike merged' := by
  induction sources generalizing hashes others values values' with
  | nil => exact .inr ⟨values, values', rfl, rfl, alike⟩
  | cons said rest ih =>
    cases said with
    | error error => exact .inl ⟨error, rfl, rfl⟩
    | ok entries =>
      have first := decided entries List.mem_cons_self
      exact ih (fun entries member => decided entries (List.mem_cons_of_mem _ member)) _ _
        (alike.putSource first (hashes 0) (others 0))

/-- The same in every order of tables: which file is found for a source, and what each source says
about a setting. -/
structure IsUnambiguous (surroundings : Surroundings) (explicit : Option String)
    (tree : FileTree) : Prop where
  files : ∀ asked ∈ commonFiles ++ surroundings.userSettings.toList ++ explicit.toList,
    tree.HasOneStandIn asked
  sources : ∀ entries, Except.ok entries ∈ saySources surroundings tree explicit →
    IsDecided entries

/-- At most one setting has a value of another kind, whatever the order. -/
def HasOneFault (surroundings : Surroundings) (sources : List Said) : Prop :=
  ∀ values, mergeSaid (fun number path => surroundings.hashes (.source number path))
    (.table none []) sources = .ok values → Settings.HasOneFault values

/-- What a layer has is said without ambiguity. -/
theorem Layer.IsSaid.isDecided {layer : Layer} {source : Option String}
    {entries : List (String × Setting)} (said : layer.IsSaid source entries) :
    IsDecided entries where
  settings := said.settings
  single part name known value value' := by
    rintro ⟨entry, member, assigns⟩ ⟨entry', member', assigns'⟩
    obtain ⟨scalar, rfl, given⟩ := said.sound entry member part name known value assigns
    obtain ⟨scalar', rfl, given'⟩ := said.sound entry' member' part name known value' assigns'
    rw [Option.some.inj (given.symm.trans given')]

/-- Sources that give layers are without ambiguity, if their files are found in every order. -/
theorem isUnambiguous_of_layers {plain hidden nested user asked environment : Layer}
    (files : ∀ asked ∈ commonFiles ++ surroundings.userSettings.toList ++ explicit.toList,
      tree.HasOneStandIn asked)
    (usual : tree.GivesUsual surroundings plain hidden nested user)
    (askedGives : tree.GivesExplicit surroundings explicit asked)
    (assigned : environment.IsAssigned surroundings.assignments) :
    IsUnambiguous surroundings explicit tree where
  files := files
  sources entries member := by
    have has := has_saySources usual askedGives assigned
    have each : ∀ said ∈ saySources surroundings tree explicit, ∃ layer, Said.Has said layer :=
      ((List.forall₂_and_left _ _).mp (has.imp fun said layer here => ⟨⟨layer, here⟩, here⟩)).1
    obtain ⟨layer, source, entries', same, isSaid⟩ := each _ member
    cases same
    exact isSaid.isDecided

theorem sayOptional_congr {asked : String} (single : tree.HasOneStandIn asked) (order : Hashes) :
    sayOptional { surroundings with hashes := order } tree asked =
      sayOptional surroundings tree asked := by
  rw [sayOptional, sayOptional, single.settingsFile?_congr _ (surroundings.hashes .formats)]
  rfl

theorem saySources_of_isUnambiguous (unambiguous : IsUnambiguous surroundings explicit tree)
    (order : Hashes) :
    saySources { surroundings with hashes := order } tree explicit =
      saySources surroundings tree explicit := by
  have common : commonFiles.map (sayOptional { surroundings with hashes := order } tree) =
      commonFiles.map (sayOptional surroundings tree) :=
    List.map_congr_left fun asked member => sayOptional_congr (unambiguous.files asked
      (List.mem_append_left _ (List.mem_append_left _ member))) order
  have user : sayUser { surroundings with hashes := order } tree =
      sayUser surroundings tree := by
    rw [sayUser, sayUser]
    dsimp only
    split
    next => rfl
    next asked own =>
      have member : asked ∈ surroundings.userSettings.toList := by simp [own]
      rw [sayOptional_congr (unambiguous.files asked
        (List.mem_append_left _ (List.mem_append_right _ member))) order]
  have asked : sayExplicit { surroundings with hashes := order } tree explicit =
      sayExplicit surroundings tree explicit := by
    cases explicit with
    | none => rfl
    | some asked =>
      have single := unambiguous.files asked (List.mem_append_right _ (List.mem_singleton_self _))
      rw [sayExplicit, sayExplicit, sayRequired, sayRequired,
        single.settingsFile?_congr _ (surroundings.hashes .formats)]
      rfl
  rw [saySources, saySources, sayFiles, sayFiles, common, user, asked]

/-- Where sources without ambiguity are put over one another, only the order in which the outcome is
checked is left. -/
theorem settle_cases (unambiguous : IsUnambiguous surroundings explicit tree) (order : Hashes) :
    settle { surroundings with hashes := order } (saySources surroundings tree explicit) =
        settle surroundings (saySources surroundings tree explicit) ∨
      ∃ values, mergeSaid (fun number path => surroundings.hashes (.source number path))
          (.table none []) (saySources surroundings tree explicit) = .ok values ∧
        settle { surroundings with hashes := order } (saySources surroundings tree explicit) =
          Settings.ofValues (fun path => order (.merged path)) values ∧
        settle surroundings (saySources surroundings tree explicit) =
          Settings.ofValues (fun path => surroundings.hashes (.merged path)) values := by
  have empty : (Setting.table none []).Alike (.table none []) :=
    ⟨Setting.isSectioned_empty, Setting.isSectioned_empty, fun _ _ _ => rfl⟩
  rw [settle, settle]
  rcases mergeSaid_of_isDecided unambiguous.sources (fun number path => order (.source number path))
    (fun number path => surroundings.hashes (.source number path)) empty with
    ⟨error, left, right⟩ | ⟨merged, values, left, right, alike⟩
  · exact .inl (by rw [left, right]; rfl)
  · refine .inr ⟨values, right, ?_, by rw [right]; rfl⟩
    rw [← alike.ofValues, left]
    rfl

/-- Without ambiguity every run loads the same settings, or none. -/
theorem loadSettings_toOption_of_isUnambiguous
    (unambiguous : IsUnambiguous surroundings explicit tree) (order : Hashes) :
    ((loadSettings { surroundings with hashes := order } explicit :
        StateM FileTree _) tree).1.toOption =
      ((loadSettings surroundings explicit : StateM FileTree _) tree).1.toOption := by
  rw [loadSettings_run, loadSettings_run, saySources_of_isUnambiguous unambiguous]
  rcases settle_cases unambiguous order with same | ⟨values, _, left, right⟩
  · exact congrArg Except.toOption same
  · dsimp only
    rw [left, right, toOption_eq_iff]
    intro settings
    rw [Settings.ofValues_eq_ok_iff, Settings.ofValues_eq_ok_iff]

/-- Without ambiguity, and with one fault at most, every run loads the same or fails in the same
way. -/
theorem loadSettings_of_isUnambiguous (unambiguous : IsUnambiguous surroundings explicit tree)
    (single : HasOneFault surroundings (saySources surroundings tree explicit)) (order : Hashes) :
    ((loadSettings { surroundings with hashes := order } explicit : StateM FileTree _) tree).1 =
      ((loadSettings surroundings explicit : StateM FileTree _) tree).1 := by
  rw [loadSettings_run, loadSettings_run, saySources_of_isUnambiguous unambiguous]
  rcases settle_cases unambiguous order with same | ⟨values, merged, left, right⟩
  · exact same
  · exact left.trans ((Settings.ofValues_of_oneFault (single values merged) _ _).trans right.symm)

end

end SchemaInterfaces
