import BlockLint.Files
import BlockLint.Rule
import BlockLint.Tokenizer

/-!
Linting of texts and files. One linter serves many files, and its plugins keep their states from
one file to the next.
-/
namespace BlockLint

structure FileReport where
  path : FilePath
  violations : List Violation
deriving Repr, DecidableEq

def FileReport.isClean (report : FileReport) : Bool :=
  report.violations.isEmpty

inductive LintError where
  | file (e : FileError)
  | plugin (path : FilePath) (e : PluginError)
deriving Repr, DecidableEq

namespace LintError

def message : LintError → Text
  | .file e => e.message
  | .plugin path e => path ++ ": " ++ e.message

end LintError

structure Linter where
  registry : Registry
  tabWidth : Nat

namespace Linter

/-- A linter with every built-in rule. -/
def builtin (tabWidth : Nat) : Linter :=
  ⟨Registry.builtin, tabWidth⟩

def disable (linter : Linter) (rule : Text) : Except PluginError Linter :=
  match linter.registry.disable rule with
  | .ok registry => .ok { linter with registry }
  | .error e => .error e

def lintText (linter : Linter) (text : Text) : Linter × Except PluginError (List Violation) :=
  let source := Source.ofText text linter.tabWidth
  let scan := linter.registry.scan source source.tokens
  ({ linter with registry := scan.registry }, scan.outcome)

def lintFile (system : FileSystem) (linter : Linter) (path : FilePath) :
    Linter × Except LintError FileReport :=
  match system.textAt path with
  | .error e => (linter, .error (.file e))
  | .ok text =>
    match linter.lintText text with
    | (next, .ok violations) => (next, .ok ⟨path, violations⟩)
    | (next, .error e) => (next, .error (.plugin path e))

/-- Lints the files one after another. One that fails does not stop the others. -/
def lintFiles (system : FileSystem) (linter : Linter) :
    List FilePath → Linter × List (Except LintError FileReport)
  | [] => (linter, [])
  | path :: rest =>
    let (next, result) := lintFile system linter path
    let (last, results) := lintFiles system next rest
    (last, result :: results)

end Linter
end BlockLint
