import BlockLint.Block.Kind
import BlockLint.Source

/-!
Tokens: the starts, contents and ends of blocks in document order. A token that consumes text keeps
it, so the texts of all tokens of a line give that line back.
-/
namespace BlockLint

/-- Where a list item's marker and content stand in the expanded line, in columns from 1. The
content is pending if nothing follows the marker on its line. -/
structure ItemGeometry where
  markerColumn : Nat
  contentColumn : Nat
  contentPending : Bool
deriving Repr, DecidableEq

/-- `natural` tells an end by rule from one that a later line or the end of the document forces.
Content is `lazy` if its line did not continue every open container. -/
inductive TokenKind where
  | containerStart (container : ContainerKind) (item : Option ItemGeometry)
  | newListItem (item : ItemGeometry) (number : Option Nat)
  | containerEnd (container : ContainerKind) (natural : Bool)
  | leafStart (leaf : LeafKind)
  | leafContent (text : Text) (isLazy : Bool)
  | leafEnd (leaf : LeafKind) (natural : Bool)
  | blankLine
deriving Repr, DecidableEq

/-- `lead` holds the markers by which the line continued open containers. The first token of the
line that consumes text carries it. -/
structure Token where
  kind : TokenKind
  position : Position
  lead : Text
  literal : Text
deriving Repr, DecidableEq

namespace Token

/-- The text that the token consumes. -/
def sourceText (token : Token) : Text :=
  token.lead ++ token.literal

def isEnd (token : Token) : Bool :=
  match token.kind with
  | .containerEnd _ _ | .leafEnd _ _ => true
  | _ => false

def opened? (token : Token) : Option ContainerKind :=
  match token.kind with
  | .containerStart container _ => some container
  | _ => none

/-- The container that the token ends, and whether it ends by rule. -/
def closed? (token : Token) : Option (ContainerKind × Bool) :=
  match token.kind with
  | .containerEnd container natural => some (container, natural)
  | _ => none

end Token
end BlockLint
