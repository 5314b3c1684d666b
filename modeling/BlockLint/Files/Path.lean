import BlockLint.Order
import BlockLint.Text

/-!
Paths of files. A path is a text, and two texts are the same path if they have the same components.
Paths are ordered by components.
-/
namespace BlockLint

abbrev FilePath := Text

/-- A step of a path. Only at the start of a relative path does the dot count as a step. -/
inductive Component where
  | root
  | current
  | parent
  | named (name : Text)
deriving Repr, DecidableEq

namespace Component

/-- The step that a part between two slashes stands for. -/
def ofPart? (part : Text) : Option Component :=
  if part = [] ∨ part = ['.'] then none
  else if part = ['.', '.'] then some .parent
  else some (.named part)

/-- The root comes before the dot, the dot before two dots, and these before names, which go by
their characters. -/
def key : Component → List Nat
  | .root => [0]
  | .current => [1]
  | .parent => [2]
  | .named name => 3 :: name.map Char.toNat

def text : Component → Text
  | .root => []
  | .current => ['.']
  | .parent => ['.', '.']
  | .named name => name

end Component

namespace FilePath

def isAbsolute (path : FilePath) : Bool :=
  path.head? == some '/'

def components (path : FilePath) : List Component :=
  let parts := Text.split '/' path
  let first : List Component :=
    if isAbsolute path then [.root] else if parts.head? = some ['.'] then [.current] else []
  first ++ parts.filterMap Component.ofPart?

def key (path : FilePath) : SortKey :=
  (components path).map Component.key

def sort (paths : List FilePath) : List FilePath :=
  sortByKey key paths

/-- The paths after `last`, without those that repeat the path before them. -/
def dropRepeatsAfter (last : FilePath) : List FilePath → List FilePath
  | [] => []
  | path :: rest =>
    if key path = key last then dropRepeatsAfter last rest
    else path :: dropRepeatsAfter path rest

/-- Of neighbours that are the same path the first stays. -/
def dropRepeats : List FilePath → List FilePath
  | [] => []
  | path :: rest => path :: dropRepeatsAfter path rest

def join (folder : FilePath) (name : Text) : FilePath :=
  if folder.isEmpty || folder.getLast? == some '/' then folder ++ name
  else folder ++ ['/'] ++ name

/-- The name at the end of the path. There is none if it ends in dots or at the root. -/
def fileName? (path : FilePath) : Option Text :=
  match (components path).getLast? with
  | some (.named name) => some name
  | _ => none

/-- What follows the last dot of a name, unless the dot is its first character. -/
def extension? (name : Text) : Option Text :=
  let extension := (name.reverse.takeWhile (· != '.')).reverse
  if name.length ≤ extension.length + 1 then none else some extension

/-- The part between two slashes leads somewhere. -/
def isStep (part : Text) : Bool :=
  (Component.ofPart? part).isSome

/-- The parts of the path before its last component, the last of them first. -/
def outerParts (path : FilePath) : List Text :=
  ((Text.split '/' path).reverse.dropWhile (!isStep ·)).tail

/-- No path may have more bytes than this. -/
def maxSize : Nat :=
  4095

def isTooLong (path : FilePath) : Bool :=
  maxSize < Text.size path

/-- No name in a folder may have more bytes than this. -/
def maxNameSize : Nat :=
  255

def isNameTooLong (name : Text) : Bool :=
  maxNameSize < Text.size name

/-- The components of `path` below `folder`, if it lies there. -/
def below? (folder path : FilePath) : Option (List Component) :=
  (components folder).isPrefixOf? (components path)

/-- The path as seen from `folder`, with single slashes and without dots. -/
def relativeTo? (folder path : FilePath) : Option FilePath :=
  match below? folder path with
  | none => none
  | some steps =>
    if steps.contains .root then none
    else some (Text.join ['/'] ((steps.filter (· != .current)).map Component.text))

/-- The path as seen from the working directory, or as it is written if it lies elsewhere. -/
def displayFrom (workingDirectory path : FilePath) : Text :=
  (relativeTo? workingDirectory path).getD path

end FilePath
end BlockLint
