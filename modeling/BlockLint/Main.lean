import BlockLint.Command

/-!
The program. It copies the files that a run can see into a tree, makes the run, and prints its
outcome.
-/
namespace BlockLint.Main

/-- The file or folder at a path, if there is one. -/
partial def readEntry (path : String) : IO (Option Entry) := do
  try
    let place ← IO.FS.realPath path
    if ← place.isDir then
      let children ← (← place.readDir).toList.filterMapM fun child => do
        return (← readEntry child.path.toString).map (child.fileName.toList, ·)
      return some (.folder children)
    else return some (.file (← IO.FS.readBinFile place))
  catch _ => return none

/-- The names from the root to where a path leads. -/
def placeOf (workingDirectory : List Text) (path : FilePath) : List Text :=
  let start := if FilePath.isAbsolute path then [] else workingDirectory
  (FilePath.components path).foldl (fun place step =>
    match step with
    | .named name => place ++ [name]
    | .parent => place.dropLast
    | .root | .current => place) start

/-- A tree with what stands at the given paths. -/
def readFiles (workingDirectory : List Text) (paths : List FilePath) : IO FileSystem := do
  let mut root := Entry.insert (.folder []) workingDirectory (.folder [])
  for path in paths do
    if let some entry ← readEntry (String.ofList path) then
      root := Entry.insert entry (placeOf workingDirectory path) root
  return ⟨root, workingDirectory⟩

def readVariables (names : List Text) : IO Environment := do
  let values ← names.filterMapM fun name => do
    return (← IO.getEnv (String.ofList name)).map fun value => (name, value.toList)
  return ⟨values⟩

/-- The part of the world that a run with these options can see. -/
def readWorld (options : Options) : IO World := do
  let workingDirectory := placeOf [] (← IO.currentDir).toString.toList
  let home ← readVariables ["HOME"]
  let settingsPath := options.settingsPath.getD (Settings.defaultPath home)
  let files ← readFiles workingDirectory (settingsPath :: options.paths)
  let settingsText := (files.textAt settingsPath).toOption.getD []
  return ⟨files, ← readVariables ("HOME" :: Expansion.mentioned settingsText)⟩

def usage : String :=
  "Usage: marklint [OPTIONS] <PATHS>...\n\n" ++
  "Options:\n" ++
  "      --config <CONFIG>        Config file (defaults to ~/.config/marklint/config.toml)\n" ++
  "      --tab-width <TAB_WIDTH>  Tab stop used for column arithmetic\n" ++
  "      --disable <RULE>         Rule id or alias to disable (repeatable)\n" ++
  "      --format <FORMAT>        Output format [possible values: text, json]\n" ++
  "      --tokens                 Print the token stream instead of linting\n" ++
  "      --html                   Print the rendered HTML instead of linting\n" ++
  "  -v, --verbose                Raise log verbosity (repeatable)\n" ++
  "  -h, --help                   Print help\n" ++
  "  -V, --version                Print version\n"

def haltText : Halt → String
  | .missingPaths => "a path is required"
  | .invalidNumber => "the tab width is not a number from 1 to 65535"
  | .invalidValue => "an option has no value or an invalid one"
  | .conflict => "an option is given twice or beside one that excludes it"
  | .unknownOption => "an option is unknown"
  | .surplusValue => "an option takes no value"
  | .help | .version => ""

def halt : Halt → IO UInt32
  | .help => do
    IO.print usage
    return 0
  | .version => do
    IO.println "marklint 0.1.0"
    return 0
  | fault => do
    IO.eprint ("error: " ++ haltText fault ++ "\n\n" ++ usage)
    return 2

end BlockLint.Main

open BlockLint in
def main (arguments : List String) : IO UInt32 := do
  match Options.parse (arguments.map String.toList) with
  | .error reason => Main.halt reason
  | .ok options =>
    match (← Main.readWorld options).run options with
    | .error e =>
      IO.eprintln ("Error: " ++ String.ofList e.message)
      return 2
    | .ok outcome =>
      IO.print (String.ofList outcome.output)
      IO.eprint (String.ofList outcome.errors)
      return UInt32.ofNat outcome.status.code
