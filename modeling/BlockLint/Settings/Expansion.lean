import BlockLint.Text.Alphanumeric

/-!
Expansion of variables and of the home folder in a text.

`$NAME` and `${NAME}` stand for the value of a variable, `${NAME:-text}` for `text` if there is no
such variable, `$$` for a dollar sign. A tilde at the start, alone or before a slash, stands for
the home folder. Values are not expanded again.
-/
namespace BlockLint

/-- The variables that are set. -/
structure Environment where
  bindings : List (Text × Text)
deriving Repr, DecidableEq

namespace Environment

def value? (environment : Environment) (name : Text) : Option Text :=
  environment.bindings.lookup name

/-- The home folder. An empty value is as good as none. -/
def home? (environment : Environment) : Option Text :=
  (environment.value? "HOME".toList).filter (!·.isEmpty)

end Environment

namespace Expansion

def isNameChar (c : Char) : Bool :=
  Text.isAlphanumeric c || c == '_'

/-- The name and the default of what stands in braces, which the first colon with a dash divides.
No default stands without a name, so if they come first all of it is a name. -/
def splitDefault : Text → Text × Option Text
  | ':' :: '-' :: rest => (':' :: '-' :: rest, none)
  | text => go [] text
where
  go (name : Text) : Text → Text × Option Text
    | ':' :: '-' :: value => (name, some value)
    | c :: rest => go (name ++ [c]) rest
    | [] => (name, none)

/-- The text with its variables replaced, if each of them is set or has a default. -/
def variables? (environment : Environment) (text : Text) : Option Text :=
  match text with
  | [] => some []
  | '$' :: '$' :: rest => (variables? environment rest).map ('$' :: ·)
  | '$' :: '{' :: rest =>
    match _found : rest.dropWhile (· != '}') with
    | [] => (variables? environment rest).map (['$', '{'] ++ ·)
    | _ :: after =>
      let (name, default) := splitDefault (rest.takeWhile (· != '}'))
      match (environment.value? name).or default with
      | none => none
      | some value => (variables? environment after).map (value ++ ·)
  | '$' :: rest =>
    match rest.takeWhile isNameChar with
    | [] => (variables? environment rest).map ('$' :: ·)
    | name =>
      match environment.value? name with
      | none => none
      | some value => (variables? environment (rest.dropWhile isNameChar)).map (value ++ ·)
  | c :: rest => (variables? environment rest).map (c :: ·)
termination_by text.length
decreasing_by
  all_goals simp only [List.length_cons]
  all_goals first
    | omega
    | (have shorter := (List.dropWhile_suffix isNameChar (l := rest)).length_le; omega)
    | (have shorter := (List.dropWhile_suffix (· != '}') (l := rest)).length_le
       simp only [‹List.dropWhile _ _ = _›, List.length_cons] at shorter
       omega)

/-- The names that may stand for variables in a text. -/
def mentioned (text : Text) : List Text :=
  (Text.split '$' text).tail.map fun part => (part.dropWhile (· == '{')).takeWhile isNameChar

/-- The text with the home folder in place of a leading tilde. -/
def tilde (environment : Environment) (text : Text) : Text :=
  match text with
  | ['~'] => environment.home?.getD text
  | '~' :: '/' :: rest =>
    match environment.home? with
    | some home => home ++ '/' :: rest
    | none => text
  | _ => text

/-- A tilde that comes out of a variable is left alone. -/
def expand? (environment : Environment) (text : Text) : Option Text :=
  match variables? environment text with
  | none => none
  | some expanded =>
    if expanded.head? = some '~' ∧ text.head? ≠ some '~' then some expanded
    else some (tilde environment expanded)

end Expansion
end BlockLint
