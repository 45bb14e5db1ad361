import SchemaInterfaces.Settings.Basic
import SchemaInterfaces.Settings.Error
import SchemaInterfaces.Settings.Visiting
import SchemaInterfaces.Text.Lowercase

/-!
# Settings out of merged values

Every setting is looked up in its section and converted to its kind. A value of another kind is
converted where it has a plain meaning, and is an error elsewhere. Of several errors the one is told
that is met first on the way through the tables. A section may also be a list, whose items are its
settings in a fixed order.
-/
namespace SchemaInterfaces

/-- Why a value is no setting of a kind. -/
structure Mismatch where
  found : Finding
  expected : Expectation
  deriving DecidableEq, Repr

namespace Setting

/-- The source of a value. -/
def source : Setting → Option String
  | scalar source _ => source
  | list source _ => source
  | table source _ => source

/-- The value as it is told in messages. -/
def finding : Setting → Finding
  | scalar _ value => .scalar value
  | list _ _ => .list
  | table _ _ => .table

/-- A text. Truth values and numbers are written out. -/
def text (setting : Setting) : Except Mismatch String :=
  match setting with
  | scalar _ (.text value) => .ok value
  | scalar _ (.boolean value) => .ok (if value then "true" else "false")
  | scalar _ (.integer n) => .ok (toString n)
  | scalar _ (.real value) => .ok value.positional
  | _ => .error ⟨setting.finding, .text⟩

/-- A text or nothing. -/
def text? (setting : Setting) : Except Mismatch (Option String) :=
  match setting with
  | scalar _ .unset => .ok none
  | _ => setting.text.map some

/-- A truth value. Numbers other than zero are true, and words for either value are understood in
any case. -/
def boolean (setting : Setting) : Except Mismatch Bool :=
  match setting with
  | scalar _ (.boolean value) => .ok value
  | scalar _ (.integer n) => .ok (n != 0)
  | scalar _ (.real value) => .ok !value.isZero
  | scalar _ (.text value) =>
    let word := Text.toLower value
    if ["1", "true", "on", "yes"].contains word then .ok true
    else if ["0", "false", "off", "no"].contains word then .ok false
    else .error ⟨.scalar (.text word), .boolean⟩
  | _ => .error ⟨setting.finding, .boolean⟩

/-- A natural number of 64 bits. Real numbers are rounded, words for truth values are one and
zero. -/
def natural (setting : Setting) : Except Mismatch Nat :=
  match setting with
  | scalar _ (.integer n) => if n < 0 then .error ⟨setting.finding, .natural⟩ else .ok n.toNat
  | scalar _ (.boolean value) => .ok (if value then 1 else 0)
  | scalar _ (.real value) => .ok (value.toNatSaturating Digits.maxUnsigned)
  | scalar _ (.text value) =>
    let word := Text.toLower value
    if ["true", "on", "yes"].contains word then .ok 1
    else if ["false", "off", "no"].contains word then .ok 0
    else
      match Digits.unsigned? value.toList with
      | some n => .ok n
      | none => .error ⟨setting.finding, .integer⟩
  | _ => .error ⟨setting.finding, .integer⟩

end Setting

/-- The kinds of settings. -/
inductive SettingKind where
  | text
  | optionalText
  | boolean
  | natural
  deriving DecidableEq, Repr

/-- Finds out whether a value can be converted to a kind. -/
def SettingKind.check (kind : SettingKind) (setting : Setting) : Except Mismatch Unit :=
  match kind with
  | text => setting.text.map fun _ => ()
  | optionalText => setting.text?.map fun _ => ()
  | boolean => setting.boolean.map fun _ => ()
  | natural => setting.natural.map fun _ => ()

namespace SectionName

def all : List SectionName := [input, generate, output]

/-- The settings of a section with their kinds. -/
def declared : SectionName → List (String × SettingKind)
  | input => [("path", .text), ("pointer", .optionalText)]
  | generate => [("root_key", .text), ("banner", .boolean)]
  | output => [("path", .text), ("indent", .natural), ("export", .boolean), ("docs", .boolean)]

end SectionName

/-- The first error among some checks. -/
def firstError {ε : Type} : List (String × Except ε Unit) → Except ε Unit
  | [] => .ok ()
  | (_, .error error) :: _ => .error error
  | (_, .ok ()) :: rest => firstError rest

/-- A section with its settings by name or in order. -/
inductive Section where
  | named (entries : List (String × Setting))
  | ordered (items : List Setting)

namespace Section

/-- The section of merged values. One that is missing has no settings. -/
def find (part : SectionName) (values : Setting) : Except SettingsError Section :=
  match values.entries.lookup part.key with
  | none => .ok (named [])
  | some (.table _ entries) => .ok (named entries)
  | some (.list _ items) => .ok (ordered items)
  | some (.scalar _ value) => .error (.notSection value part)

/-- The value of a setting by its name and its place in order. -/
def value? (name : String) (position : Nat) : Section → Option (KeyStep × Setting)
  | named entries => (entries.lookup name).map ((.key name, ·))
  | ordered items => items[position]?.map ((.index position, ·))

/-- The setting under a name, or its default. -/
def setting {α : Type} (content : Section) (part : SectionName) (name : String) (position : Nat)
    (default : α) (convert : Setting → Except Mismatch α) : Except SettingsError α :=
  match content.value? name position with
  | none => .ok default
  | some (step, setting) =>
    (convert setting).mapError fun mismatch =>
      .wrongKind mismatch.found mismatch.expected part step setting.source

/-- A check for each setting of a section. -/
def checks (content : Section) (part : SectionName) : List (String × Except SettingsError Unit) :=
  part.declared.zipIdx.map fun ((name, kind), position) =>
    (name, content.setting part name position () kind.check)

/-- Checks the settings of a section as they are met. -/
def check (hash : String → Nat) (part : SectionName) (content : Section) :
    Except SettingsError Unit :=
  match content with
  | named _ => firstError (visited hash (content.checks part))
  | ordered _ => firstError (content.checks part)

end Section

namespace Settings

/-- A check for each section of merged values. -/
def checks (hashes : List String → String → Nat) (values : Setting) :
    List (String × Except SettingsError Unit) :=
  SectionName.all.map fun part =>
    (part.key, (Section.find part values).bind (Section.check (hashes [part.key]) part))

/-- The settings of merged values whose checks succeed. -/
def convert (values : Setting) : Except SettingsError Settings := do
  let defaults : Settings := {}
  let input ← Section.find .input values
  let inputPath ← input.setting .input "path" 0 defaults.inputPath Setting.text
  let pointer ← input.setting .input "pointer" 1 defaults.pointer Setting.text?
  let generate ← Section.find .generate values
  let rootKey ← generate.setting .generate "root_key" 0 defaults.rootKey Setting.text
  let banner ← generate.setting .generate "banner" 1 defaults.banner Setting.boolean
  let output ← Section.find .output values
  let outputPath ← output.setting .output "path" 0 defaults.outputPath Setting.text
  let indent ← output.setting .output "indent" 1 defaults.indent Setting.natural
  let exported ← output.setting .output "export" 2 defaults.exported Setting.boolean
  let docs ← output.setting .output "docs" 3 defaults.docs Setting.boolean
  return { inputPath, pointer, rootKey, banner, outputPath, indent, exported, docs }

/-- The settings of merged values. -/
def ofValues (hashes : List String → String → Nat) (values : Setting) :
    Except SettingsError Settings := do
  firstError (visited (hashes []) (checks hashes values))
  convert values

end Settings

end SchemaInterfaces
