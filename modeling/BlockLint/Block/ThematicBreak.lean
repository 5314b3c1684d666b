import BlockLint.Block.Cursor

/-!
Thematic breaks: three or more of one sign, with any spaces between.
-/
namespace BlockLint

def breakSigns : List Char := ['-', '_', '*']

def minBreakSigns : Nat := 3

def isThematicBreak (rest : Text) : Bool :=
  if codeIndent ≤ Text.spaces rest then false
  else
    match Text.dropSpaces rest with
    | [] => false
    | sign :: body =>
      breakSigns.contains sign && body.all (fun c => c == sign || c == ' ') &&
        minBreakSigns ≤ (sign :: body).count sign

end BlockLint
