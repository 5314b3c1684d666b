import BlockLint.Text

/-!
Tab expansion. A tab becomes spaces up to the next multiple of the tab width, and every byte of the
expanded text remembers the column of the character that it came from.
-/
namespace BlockLint

/-- Expanded text with a column for each of its bytes and one for its end. Columns count the
characters of the text before expansion, from 1. -/
structure Expansion where
  text : Text
  columns : List Nat
deriving Repr, DecidableEq

namespace Expansion

/-- Expands the rest of a line of which `seen` characters of expanded text stand to the left.
`column` is the column of the next character. -/
def expandFrom (width : Nat) : Nat → Nat → Text → Expansion
  | _, column, [] => ⟨[], [column]⟩
  | seen, column, c :: cs =>
    if c = '\t' then
      let fill := width - seen % width
      let rest := expandFrom width (seen + fill) (column + 1) cs
      ⟨List.replicate fill ' ' ++ rest.text, List.replicate fill column ++ rest.columns⟩
    else
      let rest := expandFrom width (seen + 1) (column + 1) cs
      ⟨c :: rest.text, List.replicate c.utf8Size column ++ rest.columns⟩

end Expansion

/-- A tab width of 0 counts as 1. -/
def expandTabs (text : Text) (tabWidth : Nat) : Expansion :=
  Expansion.expandFrom (max tabWidth 1) 0 1 text

end BlockLint
