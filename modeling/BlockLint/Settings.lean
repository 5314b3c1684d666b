import BlockLint.Files
import BlockLint.Settings.Expansion
import BlockLint.Settings.Glob
import BlockLint.Source
import BlockLint.Text.Quoted
import BlockLint.Toml.Document

/-!
Settings of the linter, which a TOML file holds.

Loading expands the ignore patterns and checks the settings. Saving writes what loading reads back,
for settings that pass the check and that expansion leaves alone.
-/
namespace BlockLint

structure Settings where
  tabWidth : Nat := defaultTabWidth
  disabledRules : List Text := []
  ignore : List Text := []
deriving Repr, DecidableEq

inductive SettingsError where
  | unreadable (path : FilePath) (e : SystemError)
  | malformed (path : FilePath)
  | invalidPattern (pattern : Text) (e : GlobError)
  | zeroTabWidth
deriving Repr, DecidableEq

namespace SettingsError

def message : SettingsError → Text
  | .unreadable path e => "Failed to read config file at " ++ path ++ ": " ++ e.message
  | .malformed path => "Failed to parse config file at " ++ path
  | .invalidPattern pattern e =>
    "Invalid ignore pattern " ++ Text.quoted pattern ++ ": " ++ e.message
  | .zeroTabWidth => "tab_width must be at least 1"

/-- The error behind this one, if there is one. -/
def cause? : SettingsError → Option Text
  | .unreadable _ e => some e.message
  | .invalidPattern _ e => some e.message
  | .malformed _ | .zeroTabWidth => none

end SettingsError

/-- Patterns of files to leave out. -/
structure IgnoreSet where
  globs : List Glob
deriving Repr, DecidableEq

namespace IgnoreSet

def isEmpty (set : IgnoreSet) : Bool :=
  set.globs.isEmpty

/-- A pattern matches the whole path or the name at its end. -/
def ignores (set : IgnoreSet) (path : FilePath) : Bool :=
  set.globs.any fun glob => glob.isMatch path || (FilePath.fileName? path).any glob.isMatch

end IgnoreSet

namespace Settings

def compilePattern (pattern : Text) : Except SettingsError Glob :=
  match Glob.parse pattern with
  | .ok glob => .ok glob
  | .error e => .error (.invalidPattern pattern e)

def ignoreSet (settings : Settings) : Except SettingsError IgnoreSet :=
  (settings.ignore.mapM compilePattern).map (⟨·⟩)

def validate (settings : Settings) : Except SettingsError Unit :=
  if settings.tabWidth = 0 then .error .zeroTabWidth else settings.ignoreSet.map fun _ => ()

/-- A number below `2 ^ 64`. -/
def natural? : Toml.Value → Option Nat
  | .integer n => if 0 ≤ n ∧ n < (Nat.pow 2 64 : Nat) then some n.toNat else none
  | _ => none

def text? : Toml.Value → Option Text
  | .string text => some text
  | _ => none

def texts? : Toml.Value → Option (List Text)
  | .array items => items.mapM text?
  | _ => none

/-- The value of a field, or `default` if there is no such field. -/
def fieldOr {α : Type} (fields : Toml.Fields) (key : Text) (read : Toml.Value → Option α)
    (default : α) : Option α :=
  match fields.lookup key with
  | none => some default
  | some value => read value

/-- Fields that are missing have their defaults, and others than these do not matter. -/
def ofFields? (fields : Toml.Fields) : Option Settings := do
  let tabWidth ← fieldOr fields "tab_width" natural? defaultTabWidth
  let disabledRules ← fieldOr fields "disabled_rules" texts? []
  let ignore ← fieldOr fields "ignore" texts? []
  return { tabWidth, disabledRules, ignore }

/-- The settings that a text holds. -/
def parse? (text : Text) : Option Settings :=
  (Toml.parse? text).bind ofFields?

/-- A pattern that cannot be expanded stays as it is written. -/
def expandIgnore (environment : Environment) (settings : Settings) : Settings :=
  { settings with
    ignore := settings.ignore.map fun p => (Expansion.expand? environment p).getD p }

/-- The settings in the file at `path`, if there is one. -/
def load (environment : Environment) (files : FileSystem) (path : FilePath) :
    Except SettingsError (Option Settings) :=
  match files.entry? path with
  | none => .ok none
  | some entry =>
    match entry.read with
    | .error e => .error (.unreadable path e)
    | .ok text =>
      match parse? text with
      | none => .error (.malformed path)
      | some written =>
        let settings := written.expandIgnore environment
        match settings.validate with
        | .error e => .error e
        | .ok () => .ok (some settings)

/-- Where the settings are unless another place is named. -/
def defaultPath (environment : Environment) : FilePath :=
  FilePath.join (Expansion.tilde environment "~/.config/marklint") "config.toml"

/-- An item on a line of its own. -/
def writeItem (item : Text) : Text :=
  "    " ++ Toml.writeString item ++ ",\n"

def writeList (items : List Text) : Text :=
  match items with
  | [] => "[]".toList
  | [item] => "[" ++ Toml.writeString item ++ "]"
  | _ => "[\n" ++ items.flatMap writeItem ++ "]"

def writeField (key : Text) (value : Text) : Text :=
  key ++ " = " ++ value ++ "\n"

/-- The settings as a TOML document. -/
def write (settings : Settings) : Text :=
  writeField "tab_width" (Text.ofNat settings.tabWidth) ++
    writeField "disabled_rules" (writeList settings.disabledRules) ++
    writeField "ignore" (writeList settings.ignore)

/-- Writes the settings to a file. Its folder is made first. -/
def save (settings : Settings) (files : FileSystem) (path : FilePath) :
    Except SystemError FileSystem :=
  match files.makeParents path with
  | .error e => .error e
  | .ok prepared => prepared.write path settings.write

end Settings
end BlockLint
