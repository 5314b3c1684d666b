import BlockLint.Files.Tree

/-!
The Markdown files of a tree: which files a list of paths stands for, and their texts.
-/
namespace BlockLint

inductive FileError where
  | notFound (path : FilePath)
  | system (e : SystemError)
  | invalidRoot (path : FilePath)
deriving Repr, DecidableEq

namespace FileError

def message : FileError → Text
  | .notFound path => "File not found: " ++ path
  | .system e => "IO error: " ++ e.message
  | .invalidRoot path => "Invalid lint root: directory not found: " ++ path

/-- The error behind this one, if there is one. -/
def cause? : FileError → Option Text
  | .system e => some e.message
  | .notFound _ | .invalidRoot _ => none

end FileError

def markdownExtensions : List Text :=
  ["md", "markdown"]

/-- The file name has one of the Markdown extensions, whatever the case of its letters. -/
def FilePath.isMarkdown (path : FilePath) : Bool :=
  match (FilePath.fileName? path).bind FilePath.extension? with
  | some extension => markdownExtensions.any (Text.sameIgnoringCase extension)
  | none => false

mutual

/-- The Markdown files at or below an entry that stands at `path`. A folder whose path is too long
cannot be told from a file. -/
def Entry.markdownFiles (path : FilePath) : Entry → List FilePath
  | .file _ => if FilePath.isMarkdown path then [path] else []
  | .folder children =>
    if !FilePath.isTooLong path then Entry.markdownChildren path children
    else if FilePath.isMarkdown path then [path]
    else []

def Entry.markdownChildren (folder : FilePath) : List (Text × Entry) → List FilePath
  | [] => []
  | (name, entry) :: rest =>
    Entry.markdownFiles (FilePath.join folder name) entry ++ Entry.markdownChildren folder rest

end

namespace FileSystem

def textAt (system : FileSystem) (path : FilePath) : Except FileError Text :=
  match system.entry? path with
  | none => .error (.notFound path)
  | some entry =>
    match entry.read with
    | .ok text => .ok text
    | .error e => .error (.system e)

/-- The Markdown files below a folder, in order. -/
def scan (system : FileSystem) (root : FilePath) : Except FileError (List FilePath) :=
  match system.entry? root with
  | none => .error (.invalidRoot root)
  | some (.file _) => .error (.system .notADirectory)
  | some (.folder children) => .ok (FilePath.sort (Entry.markdownChildren root children))

/-- The files that one path stands for: those below a folder, or the file itself. -/
def filesAt (system : FileSystem) (path : FilePath) : Except FileError (List FilePath) :=
  match system.entry? path with
  | none => .error (.notFound path)
  | some (.file _) => .ok [path]
  | some (.folder _) => system.scan path

/-- The files that the paths stand for, in order and each once. The first path where nothing is
stops it. -/
def collect (system : FileSystem) (paths : List FilePath) : Except FileError (List FilePath) :=
  match paths.mapM system.filesAt with
  | .error e => .error e
  | .ok found => .ok (FilePath.dropRepeats (FilePath.sort found.flatten))

end FileSystem
end BlockLint
