import BlockLint.Files.Path

/-!
A tree of files and folders as a value, with a working directory. There are no links, so two dots
always lead to the folder that holds the current one. A path or a name that is too long leads
nowhere.
-/
namespace BlockLint

inductive Entry where
  | file (content : ByteArray)
  | folder (children : List (Text × Entry))

inductive SystemError where
  | noSuchFile
  | fileExists
  | notADirectory
  | isADirectory
  | nameTooLong
  | nulInName
  | invalidUtf8
deriving Repr, DecidableEq

namespace SystemError

def message : SystemError → Text
  | .noSuchFile => "No such file or directory (os error 2)"
  | .fileExists => "File exists (os error 17)"
  | .notADirectory => "Not a directory (os error 20)"
  | .isADirectory => "Is a directory (os error 21)"
  | .nameTooLong => "File name too long (os error 36)"
  | .nulInName => "file name contained an unexpected NUL byte"
  | .invalidUtf8 => "stream did not contain valid UTF-8"

end SystemError

namespace Entry

def isFolder : Entry → Bool
  | .folder _ => true
  | .file _ => false

/-- Sets a child of a folder, in the place of one with the same name if there is one. -/
def setChild (name : Text) (entry : Entry) : List (Text × Entry) → List (Text × Entry)
  | [] => [(name, entry)]
  | (other, old) :: rest =>
    if other = name then (name, entry) :: rest else (other, old) :: setChild name entry rest

/-- Puts an entry at the end of a chain of names. Folders on the way that do not exist are made. -/
def insert (new : Entry) : List Text → Entry → Entry
  | [], _ => new
  | name :: rest, .folder children =>
    .folder (setChild name (insert new rest ((children.lookup name).getD (.folder []))) children)
  | name :: rest, .file _ => .folder [(name, insert new rest (.folder []))]

/-- The text of a file. -/
def read : Entry → Except SystemError Text
  | .folder _ => .error .isADirectory
  | .file content =>
    match String.fromUTF8? content with
    | some text => .ok text.toList
    | none => .error .invalidUtf8

end Entry

/-- A step to a name in a folder, and what is found there. -/
structure Step where
  name : Text
  found : Except SystemError Entry

def Step.into (children : List (Text × Entry)) (name : Text) : Step where
  name := name
  found :=
    if FilePath.isNameTooLong name then .error .nameTooLong
    else
      match children.lookup name with
      | none => .error .noSuchFile
      | some entry => .ok entry

/-- The steps from the root to a place, the last of them first. -/
abbrev Trail := List Step

/-- The chain of names from the root. -/
def Trail.place (trail : Trail) : List Text :=
  (trail.map Step.name).reverse

/-- `workingDirectory` is a chain of names from the root. -/
structure FileSystem where
  root : Entry
  workingDirectory : List Text

namespace FileSystem

/-- What stands at the end of a trail. -/
def found (system : FileSystem) : Trail → Except SystemError Entry
  | [] => .ok system.root
  | step :: _ => step.found

/-- Follows the parts of a path. Every part but the last must lead to a folder. -/
def follow (system : FileSystem) (trail : Trail) : List Text → Except SystemError Trail
  | [] => .ok trail
  | part :: rest =>
    match system.found trail with
    | .error e => .error e
    | .ok (.file _) => .error .notADirectory
    | .ok (.folder children) =>
      let next :=
        match Component.ofPart? part with
        | some (.named name) => Step.into children name :: trail
        | some .parent => trail.tail
        | _ => trail
      follow system next rest

/-- Follows the parts of a path from where it starts, if the path may be used at all. -/
def followFrom (system : FileSystem) (path : FilePath) (parts : List Text) :
    Except SystemError Trail :=
  if path.contains '\x00' then .error .nulInName
  else if path.isEmpty then .error .noSuchFile
  else if FilePath.isTooLong path then .error .nameTooLong
  else if FilePath.isAbsolute path then system.follow [] parts
  else system.follow [] (system.workingDirectory ++ parts)

/-- Where the path leads, whether something is there or not. -/
def locate (system : FileSystem) (path : FilePath) : Except SystemError Trail :=
  system.followFrom path (Text.split '/' path)

def entry? (system : FileSystem) (path : FilePath) : Option Entry :=
  match system.locate path with
  | .ok trail => (system.found trail).toOption
  | .error _ => none

def isFolder (system : FileSystem) (path : FilePath) : Bool :=
  (system.entry? path).any Entry.isFolder

/-- Puts an entry at the end of a trail. -/
def put (system : FileSystem) (trail : Trail) (entry : Entry) : FileSystem :=
  { system with root := Entry.insert entry trail.place system.root }

/-- Makes one folder. -/
def makeFolder (system : FileSystem) (path : FilePath) : Except SystemError FileSystem :=
  match system.locate path with
  | .error e => .error e
  | .ok trail =>
    match system.found trail with
    | .ok _ => .error .fileExists
    | .error .noSuchFile => .ok (system.put trail (.folder []))
    | .error e => .error e

/-- A folder that could not be made may be there already. -/
def acceptFolder (system : FileSystem) (path : FilePath) (e : SystemError) :
    Except SystemError FileSystem :=
  if system.isFolder path then .ok system else .error e

/-- Makes the folder at the end of some parts, the last of which comes first. If a folder on the
way to it is missing, that one is made before. -/
def makeFolders (system : FileSystem) : List Text → Except SystemError FileSystem
  | [] => .ok system
  | part :: outer =>
    if !FilePath.isStep part then makeFolders system outer
    else
      let path := Text.join ['/'] (part :: outer).reverse
      match system.makeFolder path with
      | .ok made => .ok made
      | .error .noSuchFile =>
        match makeFolders system outer with
        | .error e => .error e
        | .ok prepared =>
          match prepared.makeFolder path with
          | .ok made => .ok made
          | .error e => prepared.acceptFolder path e
      | .error e => system.acceptFolder path e

/-- Makes the folders that lead to a path. -/
def makeParents (system : FileSystem) (path : FilePath) : Except SystemError FileSystem :=
  system.makeFolders (FilePath.outerParts path)

/-- Writes a file, which replaces the one that was there. A path that ends in a slash cannot name
a file, whatever the name before the slash. -/
def write (system : FileSystem) (path : FilePath) (text : Text) : Except SystemError FileSystem :=
  let bare := Text.dropTail (· == '/') path
  match system.followFrom path (Text.split '/' bare) with
  | .error e => .error e
  | .ok trail =>
    if bare ≠ path then .error .isADirectory
    else
      match system.found trail with
      | .ok (.folder _) => .error .isADirectory
      | .ok (.file _) | .error .noSuchFile =>
        .ok (system.put trail (.file (String.ofList text).toUTF8))
      | .error e => .error e

end FileSystem
end BlockLint
