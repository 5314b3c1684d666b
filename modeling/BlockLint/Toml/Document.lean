import BlockLint.Toml.Scalar
import BlockLint.Toml.StringForm

/-!
Documents of TOML: lines that define keys or open tables. A document that breaks a rule has no
reading.
-/
namespace BlockLint.Toml

/-- From the end of a comment's line on. -/
def skipComment : Text → Option Text
  | [] => some []
  | c :: rest =>
    if isBreak c rest then some (c :: rest) else if isPlain c then skipComment rest else none

/-- Past blanks, line breaks and comments. -/
def skipTrivia (inComment : Bool) : Text → Option Text
  | [] => some []
  | c :: rest =>
    if isBreak c rest then skipTrivia (inComment && c == '\r') rest
    else if inComment then if isPlain c then skipTrivia true rest else none
    else if isBlankChar c then skipTrivia false rest
    else if c = '#' then skipTrivia true rest
    else some (c :: rest)

def skipBlanks (text : Text) : Text :=
  text.dropWhile isBlankChar

/-- The rest after a line that holds nothing more than blanks and a comment. -/
def endLine? (text : Text) : Option Text :=
  let afterComment :=
    match skipBlanks text with
    | '#' :: rest => skipComment rest
    | rest => some rest
  match afterComment with
  | some [] => some []
  | some ('\n' :: rest) => some rest
  | some ('\r' :: '\n' :: rest) => some rest
  | _ => none

def isKeyChar (c : Char) : Bool :=
  c.isAlphanum || c == '_' || c == '-'

/-- A key without dots, and what follows it. -/
def readSimpleKey (text : Text) : Option (Text × Text) :=
  match text.takeWhile isKeyChar with
  | [] => readShortString text
  | name => some (name, text.dropWhile isKeyChar)

/-- A key with the dotted path before it. -/
structure Key where
  path : List Text
  name : Text
deriving Repr, DecidableEq

namespace Key

def under (outer : Text) (key : Key) : Key :=
  ⟨outer :: key.path, key.name⟩

def all (key : Key) : List Text :=
  key.path ++ [key.name]

end Key

/-- A key, and what follows it and the blanks after it. `fuel` bounds the number of its parts. -/
def readKeyWith : (fuel : Nat) → Text → Option (Key × Text)
  | 0, _ => none
  | fuel + 1, text =>
    match readSimpleKey (skipBlanks text) with
    | none => none
    | some (name, after) =>
      match skipBlanks after with
      | '.' :: rest => (readKeyWith fuel rest).map fun (key, rest) => (key.under name, rest)
      | rest => some (⟨[], name⟩, rest)

/-- Brackets may stand in brackets this many times, and a key has at most this many parts. -/
def maxDepth : Nat :=
  80

def readKey (text : Text) : Option (Key × Text) :=
  readKeyWith maxDepth text

/-- A key, an equals sign and a value, and what follows them. -/
def readField (value : Text → Option (Value × Text)) (text : Text) :
    Option ((Key × Value) × Text) :=
  match readKey text with
  | some (key, '=' :: rest) => (value (skipBlanks rest)).map fun (v, rest) => ((key, v), rest)
  | _ => none

/-- Items with commas between them, and one after the last if need be, up to `close`. `fuel`
bounds their number. -/
def readItems {α : Type} (close : Char) (item : Text → Option (α × Text)) :
    (fuel : Nat) → Text → Option (List α × Text)
  | 0, _ => none
  | fuel + 1, text =>
    match skipTrivia false text with
    | none => none
    | some start =>
      if start.head? = some close then some ([], start.tail)
      else
        match item start with
        | none => none
        | some (first, after) =>
          match skipTrivia false after with
          | some (',' :: rest) =>
            (readItems close item fuel rest).map fun (items, rest) => (first :: items, rest)
          | some (c :: rest) => if c = close then some ([first], rest) else none
          | _ => none

/-- The table in braces that defines these keys. -/
def tableOf? (fields : List (Key × Value)) : Option Fields :=
  fields.foldlM (fun table (key, value) => Fields.assign? key.path key.name value table) []

/-- A value, and what follows it. `depth` bounds the nesting of brackets. -/
def readValue : (depth : Nat) → Text → Option (Value × Text)
  | depth, '[' :: rest =>
    match depth with
    | 0 => none
    | depth + 1 =>
      (readItems ']' (readValue depth) (rest.length + 1) rest).map fun (items, rest) =>
        (.array items, rest)
  | depth, '{' :: rest =>
    match depth with
    | 0 => none
    | depth + 1 =>
      match readItems '}' (readField (readValue depth)) (rest.length + 1) rest with
      | none => none
      | some (fields, rest) => (tableOf? fields).map fun table => (.table .braces table, rest)
  | _, text =>
    match text with
    | '"' :: _ | '\'' :: _ => (readString text).map fun (text, rest) => (.string text, rest)
    | _ => readScalar text

inductive Statement where
  | assign (key : Key) (value : Value)
  | openTable (key : Key)
  | appendTable (key : Key)

/-- A header or a definition, and what follows it. -/
def readStatement : Text → Option (Statement × Text)
  | '[' :: '[' :: rest =>
    match readKey rest with
    | some (key, ']' :: ']' :: rest) => some (.appendTable key, rest)
    | _ => none
  | '[' :: rest =>
    match readKey rest with
    | some (key, ']' :: rest) => some (.openTable key, rest)
    | _ => none
  | text => (readField (readValue maxDepth) text).map fun ((key, value), rest) =>
      (.assign key value, rest)

/-- The statements of a document. `fuel` bounds their number. -/
def readStatements : (fuel : Nat) → Text → Option (List Statement)
  | 0, _ => none
  | fuel + 1, text =>
    match skipTrivia false text with
    | none => none
    | some [] => some []
    | some start =>
      match readStatement start with
      | none => none
      | some (statement, after) =>
        match endLine? after with
        | none => none
        | some rest => (readStatements fuel rest).map (statement :: ·)

/-- The tables so far, and the path of the last header. -/
structure Draft where
  fields : Fields
  table : List Text

def Draft.extend? (draft : Draft) : Statement → Option Draft
  | .assign key value =>
    (Fields.assignBelow? draft.table key.path key.name value draft.fields).map (⟨·, draft.table⟩)
  | .openTable key => (Fields.openTable? key.path key.name draft.fields).map (⟨·, key.all⟩)
  | .appendTable key => (Fields.appendTable? key.path key.name draft.fields).map (⟨·, key.all⟩)

/-- A mark of the byte order may stand before the document. -/
def dropMark : Text → Text
  | '\ufeff' :: rest => rest
  | text => text

/-- The fields of the document. -/
def parse? (text : Text) : Option Fields :=
  let document := dropMark text
  match readStatements (document.length + 1) document with
  | none => none
  | some statements => (statements.foldlM Draft.extend? ⟨[], []⟩).map (·.fields)

end BlockLint.Toml
