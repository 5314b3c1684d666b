import BlockLint.Text

/-!
Values and tables of TOML.

A table remembers how it came about, since that decides who may add to it: a table in braces is
complete, and a dotted key adds only to tables that dotted keys made.
-/
namespace BlockLint.Toml

/-- How a table came about: in braces, by its own header, on the way to another header, or by a
dotted key. -/
inductive Origin where
  | braces
  | header
  | way
  | dotted
deriving Repr, DecidableEq

/-- Numbers with a point and dates are kept as they are written. -/
inductive Value where
  | string (text : Text)
  | integer (n : Int)
  | float (literal : Text)
  | boolean (b : Bool)
  | dateTime (literal : Text)
  | array (items : List Value)
  | table (origin : Origin) (fields : List (Text × Value))
  | tables (elements : List (List (Text × Value)))

/-- The fields of a table, in the order of their definition. -/
abbrev Fields := List (Text × Value)

namespace Origin

/-- A table of this origin lets a path through that makes tables of origin `maker`. -/
def admits (origin maker : Origin) : Bool :=
  match origin with
  | .braces => false
  | .header => maker != .dotted
  | .way | .dotted => true

end Origin

namespace Fields

def replace (fields : Fields) (key : Text) (value : Value) : Fields :=
  fields.map fun (name, old) => if name = key then (name, value) else (name, old)

/-- A new field. A key is defined once. -/
def add? (fields : Fields) (key : Text) (value : Value) : Option Fields :=
  if (fields.lookup key).isSome then none else some (fields ++ [(key, value)])

/-- Changes the table at the end of a path. Tables on the way that do not exist are made, with
origin `maker`. `change` is told the origin of the table that it changes. -/
def alter? (maker : Origin) (change : Origin → Fields → Option Fields) (origin : Origin) :
    List Text → Fields → Option Fields
  | [], fields => change origin fields
  | key :: path, fields =>
    match fields.lookup key with
    | none =>
      (alter? maker change maker path []).map fun inner => fields ++ [(key, .table maker inner)]
    | some (.table origin inner) =>
      if origin.admits maker then
        (alter? maker change origin path inner).map fun inner =>
          replace fields key (.table origin inner)
      else none
    | some (.tables elements) =>
      match elements.getLast? with
      | none => none
      | some last =>
        (alter? maker change .header path last).map fun last =>
          replace fields key (.tables (elements.dropLast ++ [last]))
    | some _ => none

/-- Defines a key, below the tables of a dotted path if there is one. -/
def assign? (path : List Text) (key : Text) (value : Value) (fields : Fields) : Option Fields :=
  let change (origin : Origin) (inner : Fields) : Option Fields :=
    if path.isEmpty || origin = .dotted then add? inner key value else none
  alter? .dotted change .header path fields

/-- The header of a table: a new one, or one that only lay on the way so far. -/
def openTable? (path : List Text) (key : Text) (fields : Fields) : Option Fields :=
  let change (_ : Origin) (inner : Fields) : Option Fields :=
    match inner.lookup key with
    | none => some (inner ++ [(key, .table .header [])])
    | some (.table .way old) => some (replace inner key (.table .header old))
    | some _ => none
  alter? .way change .header path fields

/-- The header of one more table in a list of tables. -/
def appendTable? (path : List Text) (key : Text) (fields : Fields) : Option Fields :=
  let change (_ : Origin) (inner : Fields) : Option Fields :=
    match inner.lookup key with
    | none => some (inner ++ [(key, .tables [[]])])
    | some (.tables elements) => some (replace inner key (.tables (elements ++ [[]])))
    | some _ => none
  alter? .way change .header path fields

/-- Defines a key in the table whose header stands above it. -/
def assignBelow? (table : List Text) (path : List Text) (key : Text) (value : Value)
    (fields : Fields) : Option Fields :=
  alter? .way (fun _ => assign? path key value) .header table fields

end Fields
end BlockLint.Toml
