import SchemaInterfaces.Proofs.Files.Growth
import SchemaInterfaces.Proofs.Settings.Offers
import SchemaInterfaces.Proofs.Toml.Tables
import SchemaInterfaces.Settings.Saving

/-!
# Saved settings load as themselves

A layer can be written as a document with a table for each section, and the document gives that
layer (`Layer.isWritten_entries`). The text of settings is the document of the layer that gives all
of them, so no earlier source has a say once it is loaded after them (`Settings.load_save`).
-/
namespace SchemaInterfaces

/-- The line that gives a key a value, for the kinds of values that settings have. -/
def Scalar.line? (key : String) : Scalar → Option Toml.Line
  | .text value => some ⟨key, (Toml.quoted value).toList, .text value⟩
  | .boolean value => some ⟨key, (Settings.truthText value).toList, .boolean value⟩
  | .integer (.ofNat n) => some ⟨key, Nat.toDigits 10 n, .number (.integer n)⟩
  | _ => none

namespace Layer

/-- The table of a section with a line for each value that the layer gives. -/
def table (layer : Layer) (part : SectionName) : Toml.Table :=
  ⟨part.key, part.settings.filterMap fun name => (layer.value? part name).bind (Scalar.line? name)⟩

/-- The document of a layer. -/
def text (layer : Layer) : String :=
  String.ofList (Toml.documentText (SectionName.all.map layer.table))

/-- The entries that the document of a layer has. -/
def entries (layer : Layer) : List (String × Document) :=
  Toml.tableDocuments (SectionName.all.map layer.table)

/-- The document of the layer can be written: its indent is a number of TOML. -/
def IsWritable (layer : Layer) : Prop := ∀ n ∈ layer.indent, n ≤ Digits.maxSigned

instance (layer : Layer) : Decidable layer.IsWritable :=
  inferInstanceAs (Decidable (∀ n ∈ layer.indent, n ≤ Digits.maxSigned))

variable {layer : Layer} {part : SectionName} {name : String} {scalar : Scalar} {line : Toml.Line}

/-- A layer gives texts, truth values, and natural numbers that fit. -/
theorem value?_cases (writable : layer.IsWritable) (given : layer.value? part name = some scalar) :
    (∃ value, scalar = .text value) ∨ (∃ value, scalar = .boolean value) ∨
      ∃ n : Nat, n ≤ Digits.maxSigned ∧ scalar = .integer n := by
  unfold value? at given
  split at given
  case h_6 =>
    obtain ⟨n, own, rfl⟩ := Option.map_eq_some_iff.mp given
    exact .inr (.inr ⟨n, writable n own, rfl⟩)
  all_goals
    first
    | cases given
    | obtain ⟨value, _, rfl⟩ := Option.map_eq_some_iff.mp given
      first
      | exact .inl ⟨value, rfl⟩
      | exact .inr (.inl ⟨value, rfl⟩)

theorem spells_truthText (value : Bool) :
    Toml.Spells (Settings.truthText value).toList (.boolean value) :=
  Toml.spells_boolean value

/-- The line of a value spells it, and what it spells is the value. -/
theorem exists_line (writable : layer.IsWritable) (given : layer.value? part name = some scalar) :
    ∃ line, scalar.line? name = some line ∧ line.key = name ∧
      Toml.Spells line.spelled line.value ∧ line.value.scalar? = some scalar := by
  obtain ⟨value, rfl⟩ | ⟨value, rfl⟩ | ⟨n, small, rfl⟩ := value?_cases writable given
  · exact ⟨_, rfl, rfl, Toml.spells_quoted value, rfl⟩
  · exact ⟨_, rfl, rfl, spells_truthText value, rfl⟩
  · refine ⟨_, rfl, rfl, Toml.spells_toDigits small, ?_⟩
    change some (Scalar.ofNumber (.integer n)) = _
    rw [Scalar.ofNumber, if_pos (Digits.isWord_natCast small)]

theorem mem_lines_iff : line ∈ (layer.table part).lines ↔
    ∃ name ∈ part.settings, ∃ scalar, layer.value? part name = some scalar ∧
      scalar.line? name = some line := by
  simp only [table, List.mem_filterMap, Option.bind_eq_some_iff]

theorem isBareKey_key (part : SectionName) : Toml.IsBareKey part.key := by
  cases part <;> exact ⟨by decide, List.all_eq_true.mp (by decide)⟩

theorem isBareKey_of_mem_settings (known : name ∈ part.settings) : Toml.IsBareKey name := by
  have bare : ∀ name ∈ part.settings, name.toList ≠ [] ∧ name.toList.all Toml.isBare = true := by
    cases part <;> decide
  exact ⟨(bare name known).1, List.all_eq_true.mp (bare name known).2⟩

theorem isReadable_table (writable : layer.IsWritable) (part : SectionName) :
    (layer.table part).IsReadable where
  name := isBareKey_key part
  lines line member := by
    obtain ⟨name, known, scalar, given, written⟩ := mem_lines_iff.mp member
    obtain ⟨own, written', key, spells, _⟩ := exists_line writable given
    obtain rfl : line = own := Option.some.inj (written.symm.trans written')
    exact ⟨key ▸ isBareKey_of_mem_settings known, spells⟩
  distinct := by
    have distinct : part.settings.Nodup := by cases part <;> decide
    rw [List.Nodup, List.pairwise_map, table]
    refine List.Pairwise.filterMap _ (fun name name' differ line written line' written' => ?_)
      distinct
    obtain ⟨scalar, given, here⟩ := Option.bind_eq_some_iff.mp written
    obtain ⟨scalar', given', here'⟩ := Option.bind_eq_some_iff.mp written'
    obtain ⟨own, line, key, _⟩ := exists_line writable given
    obtain ⟨own', line', key', _⟩ := exists_line writable given'
    cases here.symm.trans line
    cases here'.symm.trans line'
    rwa [key, key']

/-- The document of a layer is read as its entries. -/
theorem read?_text (writable : layer.IsWritable) : Toml.read? layer.text = some layer.entries := by
  have distinct : (SectionName.all.map SectionName.key).Nodup := by decide
  refine Toml.read?_documentText (fun table member => ?_) distinct
  obtain ⟨part, _, rfl⟩ := List.mem_map.mp member
  exact isReadable_table writable part

theorem mem_entries (layer : Layer) (part : SectionName) :
    (part.key, Document.mapping ((layer.table part).lines.map fun line => (line.key, line.value))) ∈
      layer.entries := by
  have member : part ∈ SectionName.all := by cases part <;> decide
  exact List.mem_map.mpr ⟨layer.table part, List.mem_map_of_mem member, rfl⟩

/-- The document of a layer gives that layer. -/
theorem isWritten_entries (writable : layer.IsWritable) : layer.IsWritten layer.entries where
  sound entry there := by
    obtain ⟨_, own, rfl⟩ := List.mem_map.mp there
    obtain ⟨part, _, rfl⟩ := List.mem_map.mp own
    refine .inr ⟨part, _, rfl, fun entry member _ => ?_⟩
    obtain ⟨line, inside, rfl⟩ := List.mem_map.mp member
    obtain ⟨name, _, scalar, given, written⟩ := mem_lines_iff.mp inside
    obtain ⟨own, written', key, _, single⟩ := exists_line writable given
    obtain rfl : line = own := Option.some.inj (written.symm.trans written')
    exact ⟨scalar, single, key ▸ given⟩
  complete part name scalar given := by
    obtain ⟨line, written, key, _, _⟩ := exists_line writable given
    have member : line ∈ (layer.table part).lines :=
      mem_lines_iff.mpr ⟨name, mem_settings_of_value? given, scalar, given, written⟩
    refine ⟨_, mem_entries layer part, line.value, List.mem_map.mpr ⟨line, member, ?_⟩⟩
    rw [key]

/-- The document begins with a header and not with a byte order mark. -/
theorem withoutMark_text (layer : Layer) : Text.withoutMark layer.text = layer.text := by
  obtain ⟨rest, spelled⟩ : ∃ rest, layer.text.toList = '[' :: rest := by
    rw [text, String.toList_ofList]
    exact ⟨_, rfl⟩
  rw [Text.withoutMark, spelled]
  rfl

/-- A file of TOML with the document of a layer gives that layer. -/
theorem gives_of_text {tree : FileTree} {surroundings : Surroundings} {asked found : String}
    (writable : layer.IsWritable)
    (file : tree.settingsFile? (surroundings.hashes .formats) asked =
      some (found, layer.text.toUTF8))
    (toml : SettingsFormat.ofPath? found = some .toml) : tree.Gives surroundings asked layer := by
  refine .present file toml ?_ (isWritten_entries writable)
  rw [withoutMark_text, SettingsFormat.entries?, read?_text writable]

/-! ### The layer of all settings -/

/-- The layer that gives all settings; a pointer that is not set is not given. -/
def ofSettings (settings : Settings) : Layer where
  inputPath := settings.inputPath
  pointer := settings.pointer
  rootKey := settings.rootKey
  banner := settings.banner
  outputPath := settings.outputPath
  indent := settings.indent
  exported := settings.exported
  docs := settings.docs

theorem toList_line (key value : String) : (Settings.line key value).toList =
    key.toList ++ ([' ', '=', ' '] ++ (value.toList ++ ['\n'])) := by
  simp [Settings.line]

/-- The text of settings is the document of their layer. -/
theorem text_ofSettings (settings : Settings) : settings.text = (ofSettings settings).text := by
  apply String.toList_injective
  unfold Settings.text text
  rw [String.toList_ofList]
  obtain ⟨inputPath, pointer, rootKey, banner, outputPath, indent, exported, docs⟩ := settings
  cases pointer <;>
    simp [toList_line, ofSettings, SectionName.all, table, value?, SectionName.settings,
      SectionName.declared, SectionName.key, Scalar.line?, Toml.documentText, Toml.Table.text,
      Toml.Line.text]

/-- The layer of all settings, put over others that leave its pointer alone, gives the settings. -/
theorem settings_ofSettings (settings : Settings) {layers : List Layer}
    (pointer : settings.pointer.isSome ∨ ∀ layer ∈ layers, layer.pointer = none) :
    Layer.settings (layers ++ [ofSettings settings] ++ [({} : Layer)]) = settings := by
  have given {α : Type} (setting : Layer → Option α) (nothing : setting ({} : Layer) = none) :
      last? (layers ++ [ofSettings settings] ++ [({} : Layer)]) setting =
        (setting (ofSettings settings)).or (last? layers setting) := by
    rw [last?_append, nothing, Option.none_or, last?_append]
  have noPointer : settings.pointer.or (last? layers Layer.pointer) = settings.pointer := by
    rcases pointer with isSome | none
    · obtain ⟨value, own⟩ := Option.isSome_iff_exists.mp isSome
      rw [own, Option.some_or]
    · rw [last?, List.filterMap_eq_nil_iff.mpr none, List.getLast?_nil, Option.or_none]
  simp only [Layer.settings, given Layer.inputPath rfl, given Layer.pointer rfl,
    given Layer.rootKey rfl, given Layer.banner rfl, given Layer.outputPath rfl,
    given Layer.indent rfl, given Layer.exported rfl, given Layer.docs rfl]
  simp only [ofSettings, Option.some_or, Option.getD_some, noPointer, Option.or_none]

end Layer

/-! ### The tree with the saved file -/

section

variable {tree : FileTree} {surroundings : Surroundings} {place : Place} {settings : Settings}
  {path : String}

/-- What a source finds after a write: what it found before, or the new file. -/
theorem FileTree.firstFile?_store (free : tree.node? place ≠ some .directory)
    (kept : place ≠ nullDevice) (content : ByteArray) (paths : List String) :
    (tree.store place content).firstFile? paths = tree.firstFile? paths ∨
      ∃ path, tree.resolve path = .ok place ∧
        (tree.store place content).firstFile? paths = some (path, content) := by
  induction paths with
  | nil => exact .inl rfl
  | cons path paths ih =>
    rw [firstFile?_cons, firstFile?_cons]
    by_cases leads : tree.resolve path = .ok place
    · rw [file?_store_of_resolve free kept leads]
      exact .inr ⟨path, leads, rfl⟩
    · rw [file?_store_of_ne free leads]
      cases tree.file? path with
      | some bytes => exact .inl rfl
      | none => exact ih

/-- Settings in a file of TOML at the place of a path with that extension. -/
structure IsSavedAt (tree : FileTree) (settings : Settings) (path : String) (place : Place) :
    Prop where
  toml : Path.extension? path = some "toml"
  leads : tree.resolve path = .ok place
  free : tree.node? place ≠ some .directory
  fits : settings.indent ≤ Digits.maxSigned

/-- The tree with the saved settings. -/
def savedTree (tree : FileTree) (settings : Settings) (place : Place) : FileTree :=
  tree.store place settings.text.toUTF8

/-- A path with an extension does not lead to the null device. -/
theorem IsSavedAt.kept (saved : IsSavedAt tree settings path place) :
    place ≠ FileTree.nullDevice :=
  FileTree.ne_nullDevice_of_extension? saved.toml saved.leads saved.free

theorem IsSavedAt.ofPath? (saved : IsSavedAt tree settings path place) {other : String}
    (leads : tree.resolve other = .ok place) : SettingsFormat.ofPath? other = some .toml := by
  have named := FileTree.fileName?_of_resolve saved.leads saved.free
  have toml := saved.toml
  rw [Path.extension?, named] at toml
  rw [SettingsFormat.ofPath?, Path.extension?, FileTree.fileName?_of_resolve leads saved.free, toml]
  rfl

/-- Where the saved file is found, it gives the layer of all settings. -/
theorem IsSavedAt.gives_of_found (saved : IsSavedAt tree settings path place) {asked other : String}
    (leads : tree.resolve other = .ok place)
    (found : (savedTree tree settings place).settingsFile? (surroundings.hashes .formats) asked =
      some (other, settings.text.toUTF8)) :
    (savedTree tree settings place).Gives surroundings asked (Layer.ofSettings settings) := by
  have writable : (Layer.ofSettings settings).IsWritable := by
    intro n own
    cases own
    exact saved.fits
  rw [Layer.text_ofSettings] at found
  exact Layer.gives_of_text writable found (saved.ofPath? leads)

theorem IsSavedAt.gives (saved : IsSavedAt tree settings path place) {asked : String}
    {layer : Layer} (gives : tree.Gives surroundings asked layer) :
    (savedTree tree settings place).Gives surroundings asked layer ∨
      (savedTree tree settings place).Gives surroundings asked (Layer.ofSettings settings) := by
  rcases FileTree.firstFile?_store saved.free saved.kept settings.text.toUTF8
    (settingsPaths (surroundings.hashes .formats) asked) with same | ⟨other, leads, found⟩
  · refine .inl ?_
    change (savedTree tree settings place).settingsFile? _ asked =
      tree.settingsFile? _ asked at same
    cases gives with
    | absent none => exact .absent (same.trans none)
    | present file known parsed written => exact .present (same.trans file) known parsed written
  · exact .inr (saved.gives_of_found leads found)

/-- A path that leads to the saved file finds it. -/
theorem IsSavedAt.settingsFile? (saved : IsSavedAt tree settings path place) {asked : String}
    (leads : tree.resolve asked = .ok place) (hash : String → Nat) :
    (savedTree tree settings place).settingsFile? hash asked =
      some (asked, settings.text.toUTF8) := by
  rw [FileTree.settingsFile?, settingsPaths, FileTree.firstFile?_cons, savedTree,
    FileTree.file?_store_of_resolve saved.free saved.kept leads]
  rfl

theorem IsSavedAt.givesUser (saved : IsSavedAt tree settings path place) {layer : Layer}
    (gives : tree.GivesUser surroundings layer) :
    (savedTree tree settings place).GivesUser surroundings layer ∨
      (savedTree tree settings place).GivesUser surroundings (Layer.ofSettings settings) := by
  have found (asked : String) : ((savedTree tree settings place).find asked).isOk = true ↔
      tree.resolve asked = .ok place ∨ (tree.find asked).isOk = true :=
    FileTree.isOk_find_store_iff saved.free
  cases gives with
  | unknown none => exact .inl (.unknown none)
  | @absent asked own nothing =>
    by_cases leads : tree.resolve asked = .ok place
    · -- The saved file is at the path of the user's settings, where nothing was before.
      refine .inr (.present own ((found asked).mpr (.inl leads)) ?_)
      exact saved.gives_of_found leads (saved.settingsFile? leads _)
    · refine .inl (.absent own ?_)
      rw [← Bool.not_eq_true, found asked]
      simp [leads, nothing]
  | @present asked layer own there gives =>
    have there' := (found asked).mpr (.inr there)
    rcases saved.gives gives with same | written
    · exact .inl (.present own there' same)
    · exact .inr (.present own there' written)

/-- The usual sources give what they gave before, or the saved settings. -/
theorem IsSavedAt.givesUsual (saved : IsSavedAt tree settings path place)
    {plain hidden nested user : Layer}
    (usual : tree.GivesUsual surroundings plain hidden nested user) :
    ∃ plain' hidden' nested' user',
      (savedTree tree settings place).GivesUsual surroundings plain' hidden' nested' user' ∧
        ∀ layer ∈ [plain', hidden', nested', user'],
          layer ∈ [plain, hidden, nested, user] ∨ layer = Layer.ofSettings settings := by
  have either {gives : Layer → Prop} {before : Layer}
      (h : gives before ∨ gives (Layer.ofSettings settings)) :
      ∃ after, gives after ∧ (after = before ∨ after = Layer.ofSettings settings) := by
    rcases h with same | own
    · exact ⟨_, same, .inl rfl⟩
    · exact ⟨_, own, .inr rfl⟩
  obtain ⟨plain', plainGives, isPlain⟩ := either (saved.gives usual.plain)
  obtain ⟨hidden', hiddenGives, isHidden⟩ := either (saved.gives usual.hidden)
  obtain ⟨nested', nestedGives, isNested⟩ := either (saved.gives usual.nested)
  obtain ⟨user', userGives, isUser⟩ := either (saved.givesUser usual.user)
  refine ⟨plain', hidden', nested', user', ⟨plainGives, hiddenGives, nestedGives, userGives⟩, ?_⟩
  simp only [List.mem_cons, List.not_mem_nil, or_false]
  rintro layer (rfl | rfl | rfl | rfl)
  · exact isPlain.imp_left .inl
  · exact isHidden.imp_left fun same => .inr (.inl same)
  · exact isNested.imp_left fun same => .inr (.inr (.inl same))
  · exact isUser.imp_left fun same => .inr (.inr (.inr same))

end

namespace Settings

/-- A save that succeeds has written the text of the settings. -/
theorem isSavedAt_of_save {settings : Settings} {path : String} {tree written : FileTree}
    (toml : Path.extension? path = some "toml") (fits : settings.indent ≤ Digits.maxSigned)
    (saves : (settings.save path : StateM FileTree _) tree = (.ok (), written)) :
    ∃ place, IsSavedAt tree settings path place ∧ written = savedTree tree settings place := by
  rw [save, if_neg (Nat.not_lt.mpr fits), FileTree.writeText_run] at saves
  cases wrote : tree.write path settings.text.toUTF8 with
  | error error =>
    rw [wrote] at saves
    cases saves
  | ok after =>
    rw [wrote] at saves
    cases saves
    obtain ⟨place, leads, free, rfl⟩ := FileTree.write_eq_ok wrote
    exact ⟨place, ⟨toml, leads, free, fits⟩, rfl⟩

/-- Saved settings are loaded as they were, whatever the usual sources give: only a pointer that is
not set has to be left alone by them. An indent that is no number of TOML is not saved, and nothing
is changed. -/
theorem load_save (settings : Settings) (path : String) (tree : FileTree) :
    (settings.indent ≤ Digits.maxSigned → Path.extension? path = some "toml" →
      ∀ (surroundings : Surroundings) (plain hidden nested user : Layer),
        tree.GivesUsual surroundings plain hidden nested user →
        (settings.pointer.isSome ∨
          ∀ layer ∈ [plain, hidden, nested, user], layer.pointer = none) →
        (∀ assignment ∈ surroundings.assignments, Variable.key? assignment.1 = none) →
        ∀ written, (settings.save path : StateM FileTree _) tree = (.ok (), written) →
          (loadSettings surroundings (some path) : StateM FileTree _) written =
            (.ok settings, written)) ∧
    (Digits.maxSigned < settings.indent →
      (settings.save path : StateM FileTree _) tree = (.error .outOfRange, tree)) := by
  refine ⟨fun fits toml surroundings plain hidden nested user usual pointer noVariables written
    saves => ?_, fun large => by rw [save, if_pos large]; rfl⟩
  obtain ⟨place, saved, rfl⟩ := isSavedAt_of_save toml fits saves
  obtain ⟨plain', hidden', nested', user', usual', layers⟩ := saved.givesUsual usual
  have asked : (savedTree tree settings place).GivesExplicit surroundings (some path)
      (Layer.ofSettings settings) :=
    .present (by rw [saved.settingsFile? saved.leads]; rfl)
      (saved.gives_of_found saved.leads (saved.settingsFile? saved.leads _))
  have alone : settings.pointer.isSome ∨
      ∀ layer ∈ [plain', hidden', nested', user'], layer.pointer = none := by
    cases own : settings.pointer with
    | some value => exact .inl rfl
    | none =>
      rw [own] at pointer
      refine .inr fun layer member => ?_
      rcases layers layer member with before | rfl
      · exact (pointer.resolve_left (by decide)) layer before
      · exact own
  rw [loadSettings_of_layers usual' asked (Layer.isAssigned_nothing noVariables)]
  exact congrArg (fun loaded => (Except.ok loaded, savedTree tree settings place))
    (Layer.settings_ofSettings settings alone)

/-- Settings with quotes, a backslash, line ends and a control character in their texts. -/
def hostile : Settings where
  inputPath := "a\"b'c\\\n.yaml"
  rootKey := "'''\"\"\"\r\x01"
  outputPath := ""
  indent := 0
  exported := false

/-- What a file of settings gives that is already there. -/
def custom : Layer := { outputPath := some "b.ts", indent := some 2 }

/-- A directory with these settings. -/
def customTree : FileTree where
  entries := [(["typegen.toml"], .file custom.text.toUTF8)]

/-- Hostile texts are loaded as they were, and an indent beyond the numbers of TOML is refused. -/
theorem load_save_hostile :
    (hostile.save "saved.toml" : StateM FileTree _) customTree =
        (.ok (), savedTree customTree hostile ["saved.toml"]) ∧
      (loadSettings {} (some "saved.toml") : StateM FileTree _)
          (savedTree customTree hostile ["saved.toml"]) =
        (.ok hostile, savedTree customTree hostile ["saved.toml"]) ∧
      (({ hostile with indent := Nat.pow 2 63 } : Settings).save "saved.toml" :
        StateM FileTree _) customTree = (.error .outOfRange, customTree) := by
  have file : customTree.settingsFile? (fun _ => 0) "typegen.toml" =
      some ("typegen.toml", custom.text.toUTF8) := by
    decide +kernel
  have plain : customTree.Gives {} "typegen.toml" custom :=
    Layer.gives_of_text (by decide) file (by decide +kernel)
  have absent : ∀ path ∈ [".typegen.toml", "config/typegen.toml"],
      customTree.settingsFile? (fun _ => 0) path = none := by
    decide +kernel
  have usual : customTree.GivesUsual {} custom {} {} {} :=
    { plain := plain
      hidden := .absent (absent ".typegen.toml" (by decide))
      nested := .absent (absent "config/typegen.toml" (by decide))
      user := .unknown rfl }
  have leads : customTree.resolve "saved.toml" = .ok ["saved.toml"] := by decide +kernel
  have saves : (hostile.save "saved.toml" : StateM FileTree _) customTree =
      (.ok (), savedTree customTree hostile ["saved.toml"]) := by
    rw [save, if_neg (by decide), FileTree.writeText_run, FileTree.write, leads]
    rfl
  refine ⟨saves, ?_, (load_save { hostile with indent := Nat.pow 2 63 } "saved.toml" customTree).2
    (by decide +kernel)⟩
  exact (load_save hostile "saved.toml" customTree).1 (by decide) (by decide +kernel) {} _ _ _ _
    usual (.inr (by decide)) (by simp) _ saves

end Settings

end SchemaInterfaces
