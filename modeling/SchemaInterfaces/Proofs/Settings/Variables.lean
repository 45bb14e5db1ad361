import SchemaInterfaces.Proofs.Settings.Saving

/-!
# One variable and the files

A variable of the environment sets one setting over all files. Its text is read as a truth value, an
integer or a real number where it spells one, and a setting that is a text gets the text of that
value (`Variable.arriving`). This is what one more file would give in which the text stands in
quotes (`loadSettings_of_variable`), but it is not always the text of the variable
(`exists_respelled_variable`).
-/
namespace SchemaInterfaces

/-! ### Texts of variables -/

namespace Variable

/-- The text that a setting gets from a variable: a truth value is a word in small letters, an
integer has its decimal digits, a real number has no exponent, and any other text is as it is. -/
def arriving (text : String) : String :=
  match value text with
  | .boolean truth => Settings.truthText truth
  | .integer n => toString n
  | .real number => number.positional
  | .unset | .text _ => text

example : ["007", "+7", "TRUE", "1e3", "99999999999999999999"].map arriving =
    ["7", "7", "true", "1000", "100000000000000000000"] := by
  decide +kernel

/-- Texts that stay as they are: the words for truth values, integers of 64 bits in their usual
spelling, and texts that spell no value of another kind. -/
inductive IsPlain : String → Prop where
  | truth (truth : Bool) : IsPlain (Settings.truthText truth)
  | integer (n : Int) (word : Digits.isWord n = true) : IsPlain (toString n)
  | text (text : String) (noTruth : Text.toLower text ≠ "true" ∧ Text.toLower text ≠ "false")
      (noInteger : Digits.signed? 10 text.toList = none)
      (noReal : Binary64.ofText? text.toList = none) : IsPlain text

theorem text_value (source : Option String) (text : String) :
    (Setting.scalar source (value text)).text = .ok (arriving text) := by
  unfold arriving value
  dsimp only
  split
  next => rfl
  next =>
    split
    next => rfl
    next =>
      split
      next => rfl
      next => split <;> rfl

/-- Below the first letter no character has a lower-case form. -/
theorem lowercase_of_lt {c : Char} (below : c.toNat < 'A'.toNat) : Text.lowercase c = [c] := by
  have letters : ∀ range ∈ Text.lowerRanges, 'A'.toNat ≤ range.first := by decide +kernel
  have none : Text.mapCase? Text.lowerRanges c.toNat = none := Text.mapCase?_of_lt letters below
  have noDot : c ≠ '\u0130' := by
    rintro rfl
    exact absurd below (by decide)
  simp [Text.lowercase, noDot, none]

theorem head?_toLower {c : Char} {text : String} (begins : text.toList.head? = some c)
    (below : c.toNat < 'A'.toNat) : (Text.toLower text).toList.head? = some c := by
  cases characters : text.toList with
  | nil => simp [characters] at begins
  | cons first rest =>
    rw [characters, List.head?_cons, Option.some.injEq] at begins
    subst begins
    rw [Text.toLower, characters, Text.lowercaseAfter]
    simp [lowercase_of_lt below]

/-- A text that begins below the letters is no word for a truth value. -/
theorem value_of_signed? {c : Char} {text : String} {n : Int}
    (begins : text.toList.head? = some c) (below : c.toNat < 'A'.toNat)
    (read : Digits.signed? 10 text.toList = some n) : value text = .integer n := by
  have lower := head?_toLower begins below
  have other (word : String) (first : Char) (first_eq : word.toList.head? = some first)
      (letter : 'A'.toNat ≤ first.toNat) : Text.toLower text ≠ word := by
    rintro rfl
    obtain rfl : first = c := Option.some.inj (first_eq.symm.trans lower)
    exact absurd letter (Nat.not_le_of_lt below)
  rw [value, if_neg (other "true" 't' rfl (by decide)),
    if_neg (other "false" 'f' rfl (by decide)), read]

theorem arriving_of_isPlain {text : String} (plain : IsPlain text) : arriving text = text := by
  cases plain with
  | truth truth => cases truth <;> decide +kernel
  | integer n word =>
    obtain ⟨c, begins, below⟩ : ∃ c, (toString n).toList.head? = some c ∧ c.toNat < 'A'.toNat := by
      cases n with
      | ofNat n =>
        rw [Digits.toList_toString_ofNat]
        cases digits : Nat.toDigits 10 n with
        | nil => exact absurd digits Nat.toDigits_ne_nil
        | cons c rest =>
          have digit : c.isDigit = true :=
            Decimal.isDigit_of_mem_toDigits (by rw [digits]; exact .head _)
          exact ⟨c, rfl, Nat.lt_of_le_of_lt (Digits.toNat_of_isDigit digit).2 (by decide)⟩
      | negSucc n => exact ⟨'-', by rw [Digits.toList_toString_negSucc]; rfl, by decide⟩
    rw [arriving, value_of_signed? begins below (Digits.signed?_toString word)]
  | text _ noTruth noInteger noReal =>
    rw [arriving, value, if_neg noTruth.1, if_neg noTruth.2, noInteger, noReal]

end Variable

/-! ### One setting over merged values -/

/-- Merged values in which one setting has a new value and all other settings have the value that
they had. A section that was no table is a table with this setting only. -/
structure IsOverridden (values values' : Setting) (part : SectionName) (name : String)
    (scalar : Scalar) : Prop where
  others : ∀ other : SectionName, other ≠ part →
    values'.entries.lookup other.key = values.entries.lookup other.key
  here : ∃ origin source, values'.entries.lookup part.key =
    some (.table origin (insertEntry name (.scalar source scalar)
      ((values.entries.lookup part.key).getD .nothing).entries))

section

variable {part : SectionName} {name : String} (known : name ∈ part.settings) (values : Setting)
  (source : Option String) (scalar : Scalar)

include known

theorem putUnder_scalar (table : List (String × Setting)) :
    Setting.putUnder name table (.scalar source scalar) =
      insertEntry name (.scalar source scalar) table := by
  rw [Setting.putUnder, part.toLower_of_mem_settings name known]
  intro _ _ same
  cases same

/-- The path to a setting overrides it. -/
theorem isOverridden_path : IsOverridden values
    (values.putSource [(part.pathOf name, .scalar source scalar)]) part name scalar := by
  rw [Setting.putSource, List.foldl_cons, List.foldl_nil, part.stepsOf_pathOf name known]
  refine ⟨fun other differ => Setting.lookup_putAt_of_ne ?_ _ _ _, ?_⟩
  · rw [part.toLower_key]
    exact fun same => differ (SectionName.key_injective same)
  · simp only [Setting.putAt, part.toLower_key, putUnder_scalar known]
    exact ⟨_, source, lookup_insertEntry_self _ _ _⟩

/-- A table with one setting overrides it. -/
theorem isOverridden_table (origin : Option String) : IsOverridden values
    (values.putSource [(part.key, .table origin [(name, .scalar source scalar)])]) part name
      scalar := by
  rw [Setting.putSource, List.foldl_cons, List.foldl_nil, part.stepsOf_key]
  refine ⟨fun other differ => Setting.lookup_putAt_of_ne ?_ _ _ _, ?_⟩
  · rw [part.toLower_key]
    exact fun same => differ (SectionName.key_injective same)
  · simp only [Setting.putAt, Setting.putUnder, Setting.putEntries, part.toLower_key,
      part.toLower_of_mem_settings name known]
    cases found : values.entries.lookup part.key with
    | none => exact ⟨_, source, lookup_insertEntry_self _ _ _⟩
    | some value =>
      cases value with
      | table held entries => exact ⟨_, source, lookup_insertEntry_self _ _ _⟩
      | list held items => exact ⟨_, source, lookup_insertEntry_self _ _ _⟩
      | scalar held single => exact ⟨_, source, lookup_insertEntry_self _ _ _⟩

end

/-! ### Settings that are texts -/

/-- The settings that are texts. -/
inductive TextSetting where
  | inputPath
  | pointer
  | rootKey
  | outputPath
  deriving DecidableEq, Repr

namespace TextSetting

def part : TextSetting → SectionName
  | inputPath | pointer => .input
  | rootKey => .generate
  | outputPath => .output

def key : TextSetting → String
  | inputPath | outputPath => "path"
  | pointer => "pointer"
  | rootKey => "root_key"

/-- The variable that sets it. -/
def variableName : TextSetting → String
  | inputPath => "TYPEGEN__INPUT__PATH"
  | pointer => "TYPEGEN__INPUT__POINTER"
  | rootKey => "TYPEGEN__GENERATE__ROOT_KEY"
  | outputPath => "TYPEGEN__OUTPUT__PATH"

/-- What it is in some settings. -/
def value? (setting : TextSetting) (settings : Settings) : Option String :=
  match setting with
  | inputPath => settings.inputPath
  | pointer => settings.pointer
  | rootKey => settings.rootKey
  | outputPath => settings.outputPath

/-- Settings with a text for this one, and for the others of its section what `own` has. -/
def put (setting : TextSetting) (text : String) (own settings : Settings) : Settings :=
  match setting with
  | inputPath => { settings with inputPath := text, pointer := own.pointer }
  | pointer => { settings with inputPath := own.inputPath, pointer := text }
  | rootKey => { settings with rootKey := text, banner := own.banner }
  | outputPath =>
    { settings with
      outputPath := text, indent := own.indent, exported := own.exported, docs := own.docs }

theorem key_mem_settings (setting : TextSetting) : setting.key ∈ setting.part.settings := by
  cases setting <;> decide

theorem key?_variableName (setting : TextSetting) :
    Variable.key? setting.variableName = some (setting.part.pathOf setting.key) := by
  cases setting <;> decide +kernel

theorem value?_put (setting : TextSetting) (text : String) (own settings : Settings) :
    setting.value? (setting.put text own settings) = some text := by
  cases setting <;> rfl

variable {setting : TextSetting} {text : String} {own settings : Settings}

theorem yields_put_of_ne {content : Section} {other : SectionName} (differ : other ≠ setting.part)
    (yields : content.Yields settings other) :
    content.Yields (setting.put text own settings) other := by
  cases setting <;> cases other <;> first | exact absurd rfl differ | exact yields

end TextSetting

namespace Section

variable {α : Type} {entries : List (String × Setting)} {key other : String} {value : Setting}
  (part : SectionName) (position : Nat) (default : α) (convert : Setting → Except Mismatch α)

theorem setting_insertEntry_self {result : α} (converts : convert value = .ok result) :
    (named (insertEntry key value entries)).setting part key position default convert =
      .ok result := by
  simp [setting, value?, lookup_insertEntry_self, converts, Except.mapError]

theorem setting_insertEntry_of_ne (differ : other ≠ key) :
    (named (insertEntry key value entries)).setting part other position default convert =
      (named entries).setting part other position default convert := by
  rw [setting, setting, value?, value?, lookup_insertEntry_of_ne differ]

end Section

theorem TextSetting.yields_put {setting : TextSetting} {text : String} {own settings : Settings}
    {entries : List (String × Setting)} {source : Option String} {scalar : Scalar}
    (reads : (Setting.scalar source scalar).text = .ok text)
    (yields : (Section.named entries).Yields own setting.part) :
    (Section.named (insertEntry setting.key (.scalar source scalar) entries)).Yields
      (setting.put text own settings) setting.part := by
  have reads? : (Setting.scalar source scalar).text? = .ok (some text) := by
    cases scalar with
    | unset => cases reads
    | _ => rw [Setting.text?, reads] <;> simp [Except.map]
  cases setting with
  | inputPath =>
    exact ⟨Section.setting_insertEntry_self _ _ _ _ reads,
      (Section.setting_insertEntry_of_ne _ _ _ _ (by decide)).trans yields.2⟩
  | pointer =>
    exact ⟨(Section.setting_insertEntry_of_ne _ _ _ _ (by decide)).trans yields.1,
      Section.setting_insertEntry_self _ _ _ _ reads?⟩
  | rootKey =>
    exact ⟨Section.setting_insertEntry_self _ _ _ _ reads,
      (Section.setting_insertEntry_of_ne _ _ _ _ (by decide)).trans yields.2⟩
  | outputPath =>
    obtain ⟨_, indent, exported, docs⟩ := yields
    exact ⟨Section.setting_insertEntry_self _ _ _ _ reads,
      (Section.setting_insertEntry_of_ne _ _ _ _ (by decide)).trans indent,
      (Section.setting_insertEntry_of_ne _ _ _ _ (by decide)).trans exported,
      (Section.setting_insertEntry_of_ne _ _ _ _ (by decide)).trans docs⟩

/-- The entries of a section that can be converted can be converted as a table: a section that is a
list has none, and gets the defaults. -/
theorem exists_yields_of_find {values : Setting} {part : SectionName} {content : Section}
    {settings : Settings} (found : Section.find part values = .ok content)
    (yields : content.Yields settings part) :
    ∃ own, (Section.named ((values.entries.lookup part.key).getD .nothing).entries).Yields own
      part := by
  rw [Section.find] at found
  cases held : values.entries.lookup part.key with
  | none =>
    rw [held] at found
    cases found
    exact ⟨settings, yields⟩
  | some value =>
    rw [held] at found
    cases value with
    | table source entries =>
      cases found
      exact ⟨settings, yields⟩
    | list source items =>
      refine ⟨{}, ?_⟩
      cases part <;> simp [Section.Yields, Setting.entries, Section.setting, Section.value?]
    | scalar source single => cases found

/-- Values that are converted to settings are still converted with one text put over them, whatever
the kind of value that is read as this text. -/
theorem exists_settings_of_isOverridden (setting : TextSetting) (text : String) {values : Setting}
    {settings : Settings} (converted : Settings.convert values = .ok settings) :
    ∃ overridden, setting.value? overridden = some text ∧
      ∀ values' scalar, IsOverridden values values' setting.part setting.key scalar →
        (∀ source, (Setting.scalar source scalar).text = .ok text) →
          Settings.convert values' = .ok overridden := by
  have sections := Settings.convert_eq_ok_iff.mp converted
  obtain ⟨content, found, yields⟩ := sections setting.part
  obtain ⟨own, yields⟩ := exists_yields_of_find found yields
  refine ⟨setting.put text own settings, setting.value?_put text own settings, ?_⟩
  intro values' scalar holds reads
  refine Settings.convert_eq_ok_iff.mpr fun part => ?_
  by_cases same : part = setting.part
  · subst same
    obtain ⟨origin, source, here⟩ := holds.here
    refine ⟨_, ?_, TextSetting.yields_put (reads source) yields⟩
    rw [Section.find, here]
  · obtain ⟨content, found, yields⟩ := sections part
    refine ⟨content, ?_, TextSetting.yields_put_of_ne same yields⟩
    rw [Section.find, holds.others part same, ← Section.find, found]

/-! ### Loading -/

namespace TextSetting

variable (setting : TextSetting) (text : String)

/-- The table of TOML in which the setting has a text in quotes. -/
def table : Toml.Table :=
  ⟨setting.part.key, [⟨setting.key, (Toml.quoted text).toList, .text text⟩]⟩

def document : String := String.ofList (Toml.documentText [setting.table text])

theorem read?_document : Toml.read? (setting.document text) =
    some [(setting.part.key, .mapping [(setting.key, .text text)])] := by
  have readable : (setting.table text).IsReadable :=
    { name := Layer.isBareKey_key setting.part
      lines := List.forall_mem_singleton.mpr
        ⟨Layer.isBareKey_of_mem_settings setting.key_mem_settings, Toml.spells_quoted text⟩
      distinct := by simp [table] }
  exact Toml.read?_documentText (List.forall_mem_singleton.mpr readable) (by simp)

/-- What a file says that holds the document. -/
theorem sayBytes_document (surroundings : Surroundings) (tree : FileTree) (path : String) :
    ∃ source, sayBytes surroundings tree path .toml (setting.document text).toUTF8 =
      .ok [(setting.part.key, .table (some source)
        [(setting.key, .scalar (some source) (.text text))])] := by
  have noMark : Text.withoutMark (setting.document text) = setting.document text := by
    obtain ⟨rest, spelled⟩ : ∃ rest, (setting.document text).toList = '[' :: rest := by
      rw [document, String.toList_ofList]
      exact ⟨_, rfl⟩
    rw [Text.withoutMark, spelled]
    rfl
  refine ⟨Path.relativeTo (Path.join true tree.here) path, ?_⟩
  rw [sayBytes, Text.ofBytesLossy_toUTF8, noMark, SettingsFormat.entries?, read?_document]
  rfl

end TextSetting

/-- One more source is put over what the others say. -/
theorem mergeSaid_append (hashes : Nat → List String → String → Nat) (values : Setting)
    (sources : List Said) (entries : List (String × Setting)) :
    mergeSaid hashes values (sources ++ [.ok entries]) =
      (mergeSaid hashes values sources).map
        (·.putSource (Setting.inOrder (hashes sources.length) entries)) := by
  induction sources generalizing hashes values with
  | nil => rfl
  | cons said rest ih =>
    rw [List.cons_append, mergeSaid, mergeSaid]
    cases said with
    | error error => rfl
    | ok first => exact ih _ _

/-- One more source whose entries are the same in every order is converted with what the others
say. -/
theorem settle_append_eq_ok_iff {surroundings : Surroundings} {sources : List Said}
    {values : Setting} {entries : List (String × Setting)} {settings : Settings}
    (merged : mergeSaid (fun number path => surroundings.hashes (.source number path))
      (.table none []) sources = .ok values)
    (single : ∀ hashes, Setting.inOrder hashes entries = entries) :
    settle surroundings (sources ++ [.ok entries]) = .ok settings ↔
      Settings.convert (values.putSource entries) = .ok settings := by
  rw [settle, mergeSaid_append, merged, Except.map, single, Except.bind]
  exact Settings.ofValues_eq_ok_iff _

theorem Variable.entries_filter (assignments : List (String × String)) :
    entries (assignments.filter fun assignment => (key? assignment.1).isSome) =
      entries assignments := by
  rw [entries, entries, List.filterMap_filter]
  refine congrArg entriesOf (List.filterMap_congr fun assignment _ => ?_)
  cases key : key? assignment.1 <;> simp [key]

/-- Over files that can be loaded, one variable for a setting that is a text sets it to the text
that arrives, as one more file would with that text in quotes. A plain text arrives as it is. -/
theorem loadSettings_of_variable (setting : TextSetting) (text : String)
    (surroundings : Surroundings) (explicit : Option String) (tree : FileTree)
    (valid : ((loadSettings { surroundings with assignments := [] } explicit :
      StateM FileTree _) tree).1.isOk = true)
    (only : surroundings.assignments.filter (fun assignment =>
      (Variable.key? assignment.1).isSome) = [(setting.variableName, text)]) :
    (∃ settings,
      (loadSettings surroundings explicit : StateM FileTree _) tree = (.ok settings, tree) ∧
      setting.value? settings = some (Variable.arriving text) ∧
      ∀ path, settle surroundings (sayFiles surroundings tree explicit ++
        [sayBytes surroundings tree path .toml
          (setting.document (Variable.arriving text)).toUTF8]) = .ok settings) ∧
    (Variable.IsPlain text → Variable.arriving text = text) := by
  refine ⟨?_, Variable.arriving_of_isPlain⟩
  have assigned : Variable.entries surroundings.assignments =
      [(setting.part.pathOf setting.key,
        .scalar (some Variable.source) (Variable.value text))] := by
    rw [← Variable.entries_filter, only]
    simp [Variable.entries, entriesOf, insertEntry, setting.key?_variableName]
  rw [loadSettings_run] at valid
  rw [loadSettings_run, saySources, assigned]
  obtain ⟨before, loads⟩ : ∃ before,
      settle surroundings (sayFiles surroundings tree explicit ++ [.ok []]) = .ok before := by
    change (settle surroundings (sayFiles surroundings tree explicit ++ [.ok []])).isOk = true
      at valid
    cases loaded : settle surroundings (sayFiles surroundings tree explicit ++ [.ok []]) with
    | ok before => exact ⟨before, rfl⟩
    | error error =>
      rw [loaded] at valid
      cases valid
  cases merged : mergeSaid (fun number path => surroundings.hashes (.source number path))
    (.table none []) (sayFiles surroundings tree explicit) with
  | error error =>
    rw [settle, mergeSaid_append, merged] at loads
    cases loads
  | ok values =>
    obtain ⟨settings, sets, overrides⟩ := exists_settings_of_isOverridden setting
      (Variable.arriving text) ((settle_append_eq_ok_iff merged fun _ => rfl).mp loads)
    refine ⟨settings, ?_, sets, fun path => ?_⟩
    · have holds := isOverridden_path setting.key_mem_settings values (some Variable.source)
        (Variable.value text)
      exact congrArg (·, tree) ((settle_append_eq_ok_iff merged fun _ => rfl).mpr
        (overrides _ _ holds (Variable.text_value · text)))
    · obtain ⟨source, said⟩ :=
        setting.sayBytes_document (Variable.arriving text) surroundings tree path
      have holds := isOverridden_table setting.key_mem_settings values (some source)
        (.text (Variable.arriving text)) (some source)
      rw [said]
      exact (settle_append_eq_ok_iff merged fun _ => rfl).mpr (overrides _ _ holds fun _ => rfl)

/-- Over the settings of a file, beside a variable that is about something else, a root key with
leading zeros arrives without them. -/
theorem loadSettings_of_variable_zeros :
    ((loadSettings {} none : StateM FileTree _) Settings.customTree).1.isOk = true ∧
    ∃ settings,
      (loadSettings { assignments := [("HOME", "/root"), ("TYPEGEN__GENERATE__ROOT_KEY", "007")] }
        none : StateM FileTree _) Settings.customTree = (.ok settings, Settings.customTree) ∧
      settings.rootKey = "7" := by
  have valid : ((loadSettings {} none : StateM FileTree _) Settings.customTree).1.isOk = true := by
    decide +kernel
  have arrives : Variable.arriving "007" = "7" := by decide +kernel
  obtain ⟨⟨settings, loads, sets, _⟩, _⟩ := loadSettings_of_variable .rootKey "007"
    { assignments := [("HOME", "/root"), ("TYPEGEN__GENERATE__ROOT_KEY", "007")] } none
    Settings.customTree valid (by decide +kernel)
  refine ⟨valid, settings, loads, ?_⟩
  rw [arrives] at sets
  exact Option.some.inj sets

/-- A text that spells a number can arrive with another spelling. -/
theorem exists_respelled_variable :
    ((loadSettings {} none : StateM FileTree _) {}).1.isOk = true ∧
    ((loadSettings { assignments := [("TYPEGEN__GENERATE__ROOT_KEY", "007")] } none :
      StateM FileTree _) {}).1 = .ok { rootKey := "7" } := by
  decide +kernel

end SchemaInterfaces
