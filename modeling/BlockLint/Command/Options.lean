import BlockLint.Files.Path

/-!
Options of the command line.

An option that takes a value waits for the next argument, and paths are gathered while they follow
each other. What waits is settled when the next option is met or the arguments end, so of two
faults the one that is settled first is told.
-/
namespace BlockLint

inductive Format where
  | text
  | json
deriving Repr, DecidableEq

structure Options where
  paths : List FilePath := []
  settingsPath : Option FilePath := none
  tabWidth : Option Nat := none
  disabledRules : List Text := []
  chosenFormat : Option Format := none
  showTokens : Bool := false
  showHtml : Bool := false
  verbosity : Nat := 0
deriving Repr, DecidableEq

def Options.format (options : Options) : Format :=
  options.chosenFormat.getD .text

/-- Why the reading of the arguments stopped. -/
inductive Halt where
  | help
  | version
  | missingPaths
  | invalidNumber
  | invalidValue
  | conflict
  | unknownOption
  | surplusValue
deriving Repr, DecidableEq

/-- Options that take a value. -/
inductive Setting where
  | settingsPath
  | tabWidth
  | disable
  | format
deriving Repr, DecidableEq

/-- Options that take none. -/
inductive Switch where
  | showTokens
  | showHtml
  | verbose
  | help
  | version
deriving Repr, DecidableEq

inductive LongOption where
  | setting (setting : Setting)
  | switch (switch : Switch)
deriving Repr, DecidableEq

def LongOption.ofName? (name : Text) : Option LongOption :=
  match String.ofList name with
  | "config" => some (.setting .settingsPath)
  | "tab-width" => some (.setting .tabWidth)
  | "disable" => some (.setting .disable)
  | "format" => some (.setting .format)
  | "tokens" => some (.switch .showTokens)
  | "html" => some (.switch .showHtml)
  | "verbose" => some (.switch .verbose)
  | "help" => some (.switch .help)
  | "version" => some (.switch .version)
  | _ => none

def Switch.ofLetter? : Char → Option Switch
  | 'v' => some .verbose
  | 'h' => some .help
  | 'V' => some .version
  | _ => none

/-- A number from 1 to 65535, with or without a plus sign. -/
def tabWidth? (text : Text) : Option Nat :=
  let digits :=
    match text with
    | '+' :: rest => rest
    | _ => text
  let value := Text.valueOf digits
  if digits ≠ [] ∧ digits.all Char.isDigit ∧ 1 ≤ value ∧ value ≤ 65535 then some value else none

def Format.ofText? (text : Text) : Option Format :=
  match String.ofList text with
  | "text" => some .text
  | "json" => some .json
  | _ => none

namespace Options

/-- Gives a setting its value. All settings but the disabled rules are given once. -/
def set (options : Options) : Setting → Text → Except Halt Options
  | .settingsPath, value =>
    if options.settingsPath.isSome then .error .conflict
    else if value.isEmpty then .error .invalidValue
    else .ok { options with settingsPath := some value }
  | .tabWidth, value =>
    if options.tabWidth.isSome then .error .conflict
    else
      match tabWidth? value with
      | none => .error .invalidNumber
      | some width => .ok { options with tabWidth := some width }
  | .disable, value => .ok { options with disabledRules := options.disabledRules ++ [value] }
  | .format, value =>
    if options.chosenFormat.isSome then .error .conflict
    else
      match Format.ofText? value with
      | none => .error .invalidValue
      | some format => .ok { options with chosenFormat := some format }

def turn (options : Options) : Switch → Except Halt Options
  | .showTokens =>
    if options.showTokens then .error .conflict else .ok { options with showTokens := true }
  | .showHtml =>
    if options.showHtml then .error .conflict else .ok { options with showHtml := true }
  | .verbose => .ok { options with verbosity := options.verbosity + 1 }
  | .help => .error .help
  | .version => .error .version

def addPaths (options : Options) (paths : List FilePath) : Except Halt Options :=
  if paths.any (·.isEmpty) then .error .invalidValue
  else .ok { options with paths := options.paths ++ paths }

/-- What is checked when all arguments are read. -/
def check (options : Options) : Except Halt Options :=
  if options.showTokens && options.showHtml then .error .conflict
  else if options.paths.isEmpty then .error .missingPaths
  else .ok options

end Options

/-- What is read but not settled. -/
inductive Waiting where
  | nothing
  | setting (setting : Setting) (value : Option Text)
  | paths (paths : List FilePath)
deriving Repr, DecidableEq

/-- A setting that waits in vain for its value is a fault. -/
def Waiting.settle (waiting : Waiting) (options : Options) : Except Halt Options :=
  match waiting with
  | .nothing => .ok options
  | .setting _ none => .error .invalidValue
  | .setting which (some value) => options.set which value
  | .paths given => options.addPaths given

/-- Where the reader of the arguments stands. -/
structure Arguments where
  options : Options
  waiting : Waiting

namespace Arguments

def start : Arguments :=
  ⟨{}, .nothing⟩

def settle (state : Arguments) : Except Halt Options :=
  state.waiting.settle state.options

def set (state : Arguments) (setting : Setting) (value : Text) : Except Halt Arguments := do
  return ⟨← (← state.settle).set setting value, .nothing⟩

/-- Settles what waits and lets a setting wait for its value. -/
def await (state : Arguments) (setting : Setting) : Except Halt Arguments := do
  return ⟨← state.settle, .setting setting none⟩

def turn (state : Arguments) (switch : Switch) : Except Halt Arguments := do
  return ⟨← (← state.settle).turn switch, .nothing⟩

def turnLetter (state : Arguments) (letter : Char) : Except Halt Arguments :=
  match Switch.ofLetter? letter with
  | none => .error .unknownOption
  | some switch => state.turn switch

def addPath (state : Arguments) (path : FilePath) : Except Halt Arguments :=
  match state.waiting with
  | .paths paths => .ok ⟨state.options, .paths (paths ++ [path])⟩
  | _ => do return ⟨← state.settle, .paths [path]⟩

/-- An argument that is no option: the value of the setting that waits for one, or a path. -/
def addPlain (state : Arguments) (argument : Text) : Except Halt Arguments :=
  match state.waiting with
  | .setting setting none => .ok ⟨state.options, .setting setting (some argument)⟩
  | _ => state.addPath argument

/-- An option by its name, with the value that an equals sign attaches to it. -/
def addLong (state : Arguments) (argument : Text) : Except Halt Arguments :=
  let (name, value) := Text.cut (· == '=') argument
  match LongOption.ofName? name, value with
  | none, _ => .error .unknownOption
  | some (.switch switch), none => state.turn switch
  | some (.switch _), some _ => .error .surplusValue
  | some (.setting setting), none => state.await setting
  | some (.setting setting), some value => state.set setting value

def add (state : Arguments) : Text → Except Halt Arguments
  | '-' :: '-' :: rest => state.addLong rest
  | '-' :: letter :: rest => (letter :: rest).foldlM turnLetter state
  | argument => state.addPlain argument

/-- Reads the arguments. All that follows two dashes is a path. -/
def readAll (state : Arguments) : List Text → Except Halt Arguments
  | [] => .ok state
  | argument :: rest =>
    if argument = ['-', '-'] then rest.foldlM addPath state
    else
      match state.add argument with
      | .error halt => .error halt
      | .ok next => readAll next rest

end Arguments

/-- The options that the arguments give. -/
def Options.parse (arguments : List Text) : Except Halt Options := do
  (← (← Arguments.start.readAll arguments).settle).check

end BlockLint
