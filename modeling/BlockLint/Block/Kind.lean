import BlockLint.Text.WhiteSpace

/-!
The kinds of block. Containers hold other blocks, leaves hold lines of text.
-/
namespace BlockLint

inductive ListKind where
  | ordered (start : Nat) (delimiter : Char)
  | bulleted (bullet : Char)
deriving Repr, DecidableEq

namespace ListKind

/-- Two lists are of one type if a marker of the second continues the first. The number does not
matter, the sign after it or the bullet does. -/
def sameType : ListKind → ListKind → Bool
  | .ordered _ left, .ordered _ right => left == right
  | .bulleted left, .bulleted right => left == right
  | _, _ => false

def number? : ListKind → Option Nat
  | .ordered start _ => some start
  | .bulleted _ => none

end ListKind

inductive ContainerKind where
  | blockQuote
  | list (kind : ListKind)
deriving Repr, DecidableEq

namespace ContainerKind

def isList : ContainerKind → Bool
  | .blockQuote => false
  | .list _ => true

def sameListType : ContainerKind → ContainerKind → Bool
  | .list left, .list right => left.sameType right
  | _, _ => false

def name : ContainerKind → Text
  | .blockQuote => "block-quote"
  | .list (.ordered _ _) => "olist"
  | .list (.bulleted _) => "ulist"

end ContainerKind

inductive LeafKind where
  | paragraph
  | atxHeading (level : Nat)
  | setextHeading (level : Nat)
  | thematicBreak
  | indentedCode
  | fencedCode (fence : Char) (length : Nat) (info : Text)
deriving Repr, DecidableEq

namespace LeafKind

/-- The first word of a fence's info string. -/
def language? : LeafKind → Option Text
  | .fencedCode _ _ info => Text.firstWord? info
  | _ => none

def isCode : LeafKind → Bool
  | .indentedCode | .fencedCode _ _ _ => true
  | _ => false

def name : LeafKind → Text
  | .paragraph => "para"
  | .atxHeading _ => "atx"
  | .setextHeading _ => "setext"
  | .thematicBreak => "tbreak"
  | .indentedCode => "icode-block"
  | .fencedCode _ _ _ => "fcode-block"

end LeafKind
end BlockLint
