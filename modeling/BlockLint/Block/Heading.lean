import BlockLint.Block.Cursor

/-!
Headings: the ATX form with leading hashes, and the setext form with an underline.
-/
namespace BlockLint

structure AtxHeading where
  level : Nat
  contentStart : Nat
  text : Text
deriving Repr, DecidableEq

namespace AtxHeading

def maxLevel : Nat := 6

/-- The text without its closing sequence: hashes at the end, set off by a space or alone. -/
def dropClosing (raw : Text) : Text :=
  let raw := Text.dropTail (· == ' ') raw
  let bare := Text.dropTail (· == '#') raw
  if bare.isEmpty then []
  else if bare.length < raw.length && bare.getLast? == some ' ' then Text.dropTail (· == ' ') bare
  else raw

def parse? (rest : Text) : Option AtxHeading :=
  let indent := Text.spaces rest
  if codeIndent ≤ indent then none
  else
    let body := rest.drop indent
    let level := (body.takeWhile (· == '#')).length
    let after := body.drop level
    if level = 0 ∨ maxLevel < level then none
    else if !after.isEmpty && after.head? != some ' ' then none
    else
      let contentStart := indent + level + Text.spaces after
      some { level, contentStart, text := dropClosing (rest.drop contentStart) }

end AtxHeading

/-- The level of the heading that a line under a paragraph makes of it: 1 for equals signs, 2 for
dashes. -/
def setextLevel? (rest : Text) : Option Nat :=
  if codeIndent ≤ Text.spaces rest then none
  else
    match Text.dropTail (· == ' ') (Text.dropSpaces rest) with
    | [] => none
    | first :: body =>
      if body.all (· == first) then
        if first = '=' then some 1 else if first = '-' then some 2 else none
      else none

end BlockLint
