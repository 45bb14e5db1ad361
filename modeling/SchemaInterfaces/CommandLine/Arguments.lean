import SchemaInterfaces.Settings.Basic

/-!
# Arguments of the command line

Switches and options with a value. Each may be given once. The value of an option stands in the
next argument, or behind it in the same one, with or without an equals sign after a short name.
-/
namespace SchemaInterfaces.CommandLine

/-- An argument that stands for itself. -/
inductive Switch where
  | docs
  | stdout
  | check
  deriving DecidableEq, Repr

/-- An argument that takes a value. -/
inductive ValueOption where
  | config
  | input
  | output
  | rootKey
  | pointer
  | init
  deriving DecidableEq, Repr

namespace ValueOption

/-- Whether the value is a path; a path is not empty. -/
def isPath : ValueOption → Bool
  | rootKey => false
  | pointer => false
  | _ => true

/-- The options by their long names. -/
def byName : List (String × ValueOption) :=
  [("config", config), ("input", input), ("output", output), ("root-key", rootKey),
    ("pointer", pointer), ("init", init)]

/-- The options by their short names. -/
def byLetter : List (Char × ValueOption) :=
  [('c', config), ('i', input), ('o', output), ('r', rootKey), ('p', pointer)]

end ValueOption

/-- The switches by their names. -/
def Switch.byName : List (String × Switch) :=
  [("docs", docs), ("stdout", stdout), ("check", check)]

/-- What one argument is, taken by itself. -/
inductive Word where
  /-- The end of switches and options. -/
  | separator
  | help
  | turnOn (switch : Switch)
  | give (option : ValueOption) (value : Option String)
  | unknown
  deriving DecidableEq, Repr

/-- An argument with a long name, and what stands behind its equals sign. -/
def Word.ofLong (name : String) (value : Option String) : Word :=
  match ValueOption.byName.lookup name, Switch.byName.lookup name, value with
  | some option, _, value => .give option value
  | none, some switch, none => .turnOn switch
  | none, none, none => if name = "help" then .help else .unknown
  | none, _, some _ => .unknown

/-- An argument with a short name, and the characters behind the name. -/
def Word.ofShort (letter : Char) (rest : List Char) : Word :=
  if letter = 'h' then .help
  else
    match ValueOption.byLetter.lookup letter with
    | none => .unknown
    | some option =>
      match rest with
      | [] => .give option none
      | '=' :: value => .give option (some (String.ofList value))
      | value => .give option (some (String.ofList value))

def Word.ofArgument (argument : String) : Word :=
  match argument.toList with
  | ['-', '-'] => .separator
  | '-' :: '-' :: rest =>
    let name := rest.takeWhile (· ≠ '=')
    let value :=
      match rest.drop name.length with
      | [] => none
      | _ :: value => some (String.ofList value)
    .ofLong (String.ofList name) value
  | '-' :: letter :: rest => .ofShort letter rest
  | _ => .unknown

/-- Whether an argument can be the value of the option in front of it. -/
def isValue (argument : String) : Bool :=
  argument = "-" || argument.toList.head? != some '-'

/-- What the arguments ask for. -/
structure Arguments where
  config : Option String := none
  input : Option String := none
  output : Option String := none
  rootKey : Option String := none
  pointer : Option String := none
  init : Option String := none
  docs : Bool := false
  stdout : Bool := false
  check : Bool := false
  deriving DecidableEq, Repr

namespace Arguments

/-- Gives a value that is not given yet. -/
def once {α : Type} (value : α) : Option α → Option (Option α)
  | none => some (some value)
  | some _ => none

/-- Gives an option its value, unless it has one or the value is no path. -/
def give? (arguments : Arguments) (option : ValueOption) (value : String) : Option Arguments :=
  if option.isPath && value.isEmpty then none
  else
    match option with
    | .config => (once value arguments.config).map ({ arguments with config := · })
    | .input => (once value arguments.input).map ({ arguments with input := · })
    | .output => (once value arguments.output).map ({ arguments with output := · })
    | .rootKey => (once value arguments.rootKey).map ({ arguments with rootKey := · })
    | .pointer => (once value arguments.pointer).map ({ arguments with pointer := · })
    | .init => (once value arguments.init).map ({ arguments with init := · })

/-- Turns a switch on, unless it is on. -/
def turnOn? (arguments : Arguments) : Switch → Option Arguments
  | .docs => if arguments.docs then none else some { arguments with docs := true }
  | .stdout => if arguments.stdout then none else some { arguments with stdout := true }
  | .check => if arguments.check then none else some { arguments with check := true }

/-- Printing and checking exclude each other. -/
def isConsistent (arguments : Arguments) : Bool := !(arguments.stdout && arguments.check)

/-- Puts the arguments over the settings. -/
def applyTo (arguments : Arguments) (settings : Settings) : Settings :=
  { settings with
    inputPath := arguments.input.getD settings.inputPath
    outputPath := arguments.output.getD settings.outputPath
    rootKey := arguments.rootKey.getD settings.rootKey
    pointer := arguments.pointer <|> settings.pointer
    docs := arguments.docs || settings.docs }

end Arguments

/-- What a command line asks for. -/
inductive Request where
  | help
  | run (arguments : Arguments)
  deriving DecidableEq, Repr

namespace Request

/-- The request for a run with all its arguments. -/
def finished? (arguments : Arguments) : Option Request :=
  if arguments.isConsistent then some (.run arguments) else none

/-- Reads arguments in order. A wrong one is met before a later wish for help. -/
def read? (arguments : Arguments) : List String → Option Request
  | [] => finished? arguments
  | argument :: rest =>
    match Word.ofArgument argument with
    | .separator => if rest.isEmpty then finished? arguments else none
    | .help => some .help
    | .turnOn switch => do read? (← arguments.turnOn? switch) rest
    | .give option (some value) => do read? (← arguments.give? option value) rest
    | .give option none =>
      match rest with
      | [] => none
      | value :: rest =>
        if isValue value then do read? (← arguments.give? option value) rest else none
    | .unknown => none

/-- What a command line asks for, if its arguments are in order. -/
def ofArguments? (arguments : List String) : Option Request := read? {} arguments

end Request

end SchemaInterfaces.CommandLine
