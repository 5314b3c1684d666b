import BlockLint.Block.Container
import BlockLint.Block.Fence
import BlockLint.Token

/-!
The leaf that is open between two lines, and the tokens that end leaves and containers.

The tokens of an open paragraph stay with it until it ends, since a setext underline still turns it
into a heading. So do the blank lines after indented code, which belong to the code only if more of
it follows.
-/
namespace BlockLint

/-- A blank line inside indented code, as a token and as the rest of its line. -/
structure HeldBlank where
  token : Token
  rest : Text
deriving Repr, DecidableEq

/-- The leaf that takes further lines. -/
inductive OpenLeaf where
  | none
  | paragraph (opening : Token) (contents : List Token)
  | indentedCode (held : List HeldBlank)
  | fencedCode (fence : Fence)
deriving Repr, DecidableEq

/-- An end consumes no text. -/
def endToken (kind : TokenKind) (position : Position) : Token :=
  { kind, position, lead := [], literal := [] }

namespace OpenLeaf

def isParagraph : OpenLeaf → Bool
  | .paragraph _ _ => true
  | _ => false

/-- The tokens of the leaf that are kept back. -/
def pending : OpenLeaf → List Token
  | .paragraph opening contents => opening :: contents
  | _ => []

/-- Ends the leaf. Blank lines that were held turn out to follow it, and it ends before them. -/
def close (leaf : OpenLeaf) (natural : Bool) (position : Position) : List Token :=
  match leaf with
  | .none => []
  | .paragraph opening contents =>
    opening :: contents ++ [endToken (.leafEnd .paragraph natural) position]
  | .indentedCode held =>
    let place := (held.head?.map (·.token.position)).getD position
    endToken (.leafEnd .indentedCode natural) place :: held.map (·.token)
  | .fencedCode fence => [endToken (.leafEnd fence.leafKind natural) position]

end OpenLeaf

namespace Containers

/-- Ends containers, the innermost first. -/
def close (containers : Containers) (natural : Bool) (position : Position) : List Token :=
  containers.reverse.map fun frame => endToken (.containerEnd frame.kind natural) position

end Containers

end BlockLint
