import SchemaInterfaces.Number.Digits
import SchemaInterfaces.Yaml.Reader

/-!
# Scalars of YAML settings

What a scalar in a YAML file of settings stands for. The spellings are fewer than those of a
document: nothing is `~` or `null`, truth values are in small letters, and integers may be decimal
or have a mark for one of two bases. Infinities in the spelling of YAML are refused.
-/
namespace SchemaInterfaces.Yaml

/-- An integer of 64 bits. A plus sign may stand in front of another sign. -/
def settingInteger? (text : List Char) : Option Int :=
  match text with
  | '0' :: 'x' :: digits => Digits.signed? 16 digits
  | '0' :: 'o' :: digits => Digits.signed? 8 digits
  | '+' :: rest => Digits.signed? 10 rest
  | _ => Digits.signed? 10 text

/-- Infinities, and the value that is no number, where they are spelled as in YAML. -/
def isMarkedReal (text : String) : Bool :=
  [".inf", ".Inf", ".INF", "+.inf", "+.Inf", "+.INF", "-.inf", "-.Inf", "-.INF", ".nan",
    ".NAN"].contains text

/-- The value of a plain scalar without a tag. -/
def untaggedSetting? (text : String) : Option Document :=
  if text = "" ∨ text = "~" ∨ text = "null" then some .null
  else if text = "true" then some (.boolean true)
  else if text = "false" then some (.boolean false)
  else
    match settingInteger? text.toList with
    | some n => some (.number (.integer n))
    | none =>
      if isMarkedReal text then none
      else
        match Binary64.ofText? text.toList with
        | some value => some (.number (.real value))
        | none => some (.text text)

/-- The value of a plain scalar under a tag. What does not have the form of the tag stands for
nothing. -/
def taggedSetting? (tag text : String) : Option Document :=
  if tag = "tag:yaml.org,2002:bool" then
    if text = "true" then some (.boolean true)
    else if text = "false" then some (.boolean false)
    else some .null
  else if tag = "tag:yaml.org,2002:int" then
    match Digits.signed? 10 text.toList with
    | some n => some (.number (.integer n))
    | none => some .null
  else if tag = "tag:yaml.org,2002:float" then
    if isMarkedReal text then none
    else
      match Binary64.ofText? text.toList with
      | some value => some (.number (.real value))
      | none => some .null
  else if tag = "tag:yaml.org,2002:null" then some .null
  else some (.text text)

def settingValue? (tag : Option String) (text : String) (plain : Bool) : Option Document :=
  if plain then
    match tag with
    | some tag => taggedSetting? tag text
    | none => untaggedSetting? text
  else some (.text text)

/-- Scalars of settings. Keys are texts and integers. -/
def settingScalars : ScalarReading where
  value? := settingValue?
  key? tag text plain :=
    match settingValue? tag text plain with
    | some (.text key) => some key
    | some (.number (.integer n)) => some (toString n)
    | _ => none
  allowsLocalTags := true

/-- The document of a YAML file of settings. An empty text has no entries. -/
def readSettings? (text : String) : Option Document :=
  (readWith? settingScalars text).map (·.getD (.mapping []))

end SchemaInterfaces.Yaml
