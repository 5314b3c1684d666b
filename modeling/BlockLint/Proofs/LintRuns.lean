import BlockLint.Command
import BlockLint.Proofs.FileSelection
import BlockLint.Proofs.ListSeparation
import BlockLint.Proofs.Subscriptions

/-!
Lint runs, file by file. A run that selects files and can disable the rules it is told to disable
always ends: each file that can be read has a report, which its own text and the rules that are left
decide. The output is these reports in the order of the files, and the exit code is the worst that
any file calls for. So a run on one of the files alone writes for it what the whole run does.
-/
namespace BlockLint

namespace Registry

end Registry

namespace Linter

/-- The linter with those built-in rules that none of the names is a name of. -/
def without (tabWidth : Nat) (names : List Text) : Linter :=
  ⟨⟨builtinRules.map fun rule => ⟨rule, !names.any rule.info.answersTo⟩⟩, tabWidth⟩

section
variable {tabWidth : Nat} {names : List Text}

end
end Linter

namespace World

/-- What a report takes up in the output. In JSON it is an item of an array. -/
def share (format : Format) (report : FileReport) : Text :=
  match format with
  | .text => reportText report
  | .json => Json.pretty 1 report.json

def frame : Format → List Text → Text
  | .text, shares => shares.flatten
  | .json, [] => "[]\n"
  | .json, first :: rest =>
    ['['] ++ Json.newLine 1 ++ first ++ rest.flatMap ([','] ++ Json.newLine 1 ++ ·) ++
      Json.newLine 0 ++ [']', '\n']

end World

/-- What a run lints: under which settings, which files, and what is wrong with a text. -/
structure Job where
  settings : Settings
  files : List FilePath
  violations : Text → List Violation

namespace Job

/-- The job is what the options call for. The command line overrides the tab width of the settings
file and adds to the rules that it disables. -/
structure Fits (job : Job) (world : World) (options : Options) : Prop where
  loaded : ∃ found, Settings.load world.environment world.files
      (options.settingsPath.getD (Settings.defaultPath world.environment)) = .ok found ∧
    job.settings.tabWidth = options.tabWidth.getD (found.getD {}).tabWidth ∧
    job.settings.disabledRules = (found.getD {}).disabledRules ++ options.disabledRules ∧
    job.settings.ignore = (found.getD {}).ignore
  selected : ∃ ignore found, job.settings.ignoreSet = .ok ignore ∧
    world.files.collect options.paths = .ok found ∧ job.files = found.filter (!ignore.ignores ·)
  inOrder : job.files.Pairwise FilePath.Before
  linted : ∀ text,
    ((Linter.without job.settings.tabWidth job.settings.disabledRules).lintText text).2 =
      .ok (job.violations text)

def report? (job : Job) (world : World) (path : FilePath) : Option FileReport :=
  (world.files.textAt path).toOption.map fun text => ⟨path, job.violations text⟩

def reports (job : Job) (world : World) : List FileReport :=
  job.files.filterMap (job.report? world)

section
variable {job : Job} {world : World}

end
end Job

namespace World

section
variable {world : World} {options : Options} {settings : Settings} {paths files : List FilePath}

theorem select_eq_ok_iff :
    world.select settings paths = .ok files ↔
      ∃ ignore found, settings.ignoreSet = .ok ignore ∧ world.files.collect paths = .ok found ∧
        files = found.filter (!ignore.ignores ·) := by
  rw [select]
  cases settings.ignoreSet with
  | error e => simp
  | ok ignore =>
    cases world.files.collect paths with
    | error e => simp
    | ok found => simp [eq_comm]

end
end World

namespace World

end World
end BlockLint
