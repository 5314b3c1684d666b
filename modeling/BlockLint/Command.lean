import BlockLint.Command.Options
import BlockLint.Html
import BlockLint.Json
import BlockLint.Settings
import BlockLint.Token.Display

/-!
The command: it selects files, and lints them or shows their tokens or their HTML. A file that
cannot be read is told of and does not stop the others.
-/
namespace BlockLint

/-- What a run sees. -/
structure World where
  files : FileSystem
  environment : Environment

inductive RunError where
  | settings (e : SettingsError)
  | settingsNotFound (path : FilePath)
  | files (e : FileError)
  | rule (name : Text) (e : PluginError)
deriving Repr, DecidableEq

namespace RunError

def withCause (message : Text) (cause : Option Text) : Text :=
  match cause with
  | none => message
  | some reason => message ++ ": " ++ reason

/-- The error, and after it the one that caused it, also if the first tells of it already. -/
def message : RunError → Text
  | .settings e => withCause e.message e.cause?
  | .settingsNotFound path => "Config file not found: " ++ path
  | .files e => withCause e.message e.cause?
  | .rule name e => "Cannot disable rule " ++ Text.quoted name ++ ": " ++ e.message

end RunError

inductive ExitStatus where
  | clean
  | violations
  | failed
deriving Repr, DecidableEq

namespace ExitStatus

def code : ExitStatus → Nat
  | .clean => 0
  | .violations => 1
  | .failed => 2

/-- A failure counts for more than a violation. -/
def ofRun (failed violated : Bool) : ExitStatus :=
  if failed then .failed else if violated then .violations else .clean

end ExitStatus

structure Outcome where
  status : ExitStatus
  output : Text
  errors : Text
deriving Repr, DecidableEq

namespace World

/-- The settings, with those of the command line on top. -/
def settings (world : World) (options : Options) : Except RunError Settings :=
  let path := options.settingsPath.getD (Settings.defaultPath world.environment)
  match Settings.load world.environment world.files path with
  | .error e => .error (.settings e)
  | .ok found =>
    if found.isNone && options.settingsPath.isSome then .error (.settingsNotFound path)
    else
      let loaded := found.getD {}
      .ok { loaded with
        tabWidth := options.tabWidth.getD loaded.tabWidth
        disabledRules := loaded.disabledRules ++ options.disabledRules }

/-- The files that the paths stand for, without those to ignore. -/
def select (world : World) (settings : Settings) (paths : List FilePath) :
    Except RunError (List FilePath) :=
  match settings.ignoreSet with
  | .error e => .error (.settings e)
  | .ok ignore =>
    match world.files.collect paths with
    | .error e => .error (.files e)
    | .ok found => .ok (found.filter (!ignore.ignores ·))

/-- What is shown of a file's text. `many` puts the path above a list of tokens. -/
def view (options : Options) (tabWidth : Nat) (many : Bool) (path : FilePath) (text : Text) :
    Text :=
  let tokens := tokenize text tabWidth
  if options.showHtml then (Html.render tokens).toOption.getD [] ++ ['\n']
  else
    match options.format with
    | .json => Json.pretty 0 (.array (tokens.map Token.json)) ++ ['\n']
    | .text =>
      let header : Text := if many then "==> " ++ path ++ " <==\n" else []
      header ++ Token.dump tokens

/-- Shows the tokens or the HTML of the files. -/
def inspect (world : World) (options : Options) (tabWidth : Nat) (paths : List FilePath) :
    Outcome :=
  let many := decide (1 < paths.length)
  let shown (path : FilePath) : Text :=
    match world.files.textAt path with
    | .ok text => view options tabWidth many path text
    | .error _ => []
  let fault (path : FilePath) : Text :=
    match world.files.textAt path with
    | .ok _ => []
    | .error e => path ++ ": " ++ e.message ++ "\n"
  let errors := paths.flatMap fault
  ⟨ExitStatus.ofRun (!errors.isEmpty) false, paths.flatMap shown, errors⟩

def disableRules (linter : Linter) : List Text → Except RunError Linter
  | [] => .ok linter
  | rule :: rest =>
    match linter.disable rule with
    | .error e => .error (.rule rule e)
    | .ok next => disableRules next rest

/-- A line for each violation. -/
def reportText (report : FileReport) : Text :=
  report.violations.flatMap fun v => report.path ++ [':'] ++ v.display ++ ['\n']

def reportAll (format : Format) (reports : List FileReport) : Text :=
  match format with
  | .text => reports.flatMap reportText
  | .json => Json.pretty 0 (.array (reports.map FileReport.json)) ++ ['\n']

def lint (world : World) (options : Options) (settings : Settings) (paths : List FilePath) :
    Except RunError Outcome :=
  match disableRules (Linter.builtin settings.tabWidth) settings.disabledRules with
  | .error e => .error e
  | .ok linter =>
    let results := (linter.lintFiles world.files paths).2
    let reports := results.filterMap Except.toOption
    let fault (result : Except LintError FileReport) : Text :=
      match result with
      | .ok _ => []
      | .error e => e.message ++ "\n"
    let failed := decide (reports.length < results.length)
    let violated := reports.any (!·.isClean)
    .ok ⟨ExitStatus.ofRun failed violated, reportAll options.format reports,
      results.flatMap fault⟩

/-- A run of the command. -/
def run (world : World) (options : Options) : Except RunError Outcome :=
  match world.settings options with
  | .error e => .error e
  | .ok settings =>
    match world.select settings options.paths with
    | .error e => .error e
    | .ok paths =>
      if options.showTokens || options.showHtml then
        .ok (world.inspect options settings.tabWidth paths)
      else world.lint options settings paths

end World
end BlockLint
