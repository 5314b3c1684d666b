import BlockLint.Block.Fence
import BlockLint.Block.Heading
import BlockLint.Block.ThematicBreak

/-!
What the rest of a line is, once the container markers are taken off.
-/
namespace BlockLint

inductive LineClass where
  | blank
  | setextUnderline (level : Nat)
  | indented
  | thematicBreak
  | atxHeading (heading : AtxHeading)
  | fenceOpen (fence : Fence)
  | text
deriving Repr, DecidableEq

namespace LineClass

/-- The class of a line's rest. Only under a paragraph can it be a setext underline. -/
def of (rest : Text) (paragraphOpen : Bool) : LineClass :=
  if Text.isBlank rest then .blank
  else if codeIndent ≤ Text.spaces rest then .indented
  else
    match (if paragraphOpen then setextLevel? rest else none) with
    | some level => .setextUnderline level
    | none =>
      match AtxHeading.parse? rest with
      | some heading => .atxHeading heading
      | none =>
        if isThematicBreak rest then .thematicBreak
        else
          match Fence.open? rest with
          | some fence => .fenceOpen fence
          | none => .text

/-- Such a line goes on with a paragraph even where containers failed to match. -/
def continuesParagraph : LineClass → Bool
  | .indented | .text => true
  | _ => false

end LineClass

/-- A paragraph's share of a line: the rest without its indent. -/
def paragraphText (rest : Text) : Text :=
  Text.dropSpaces rest

end BlockLint
