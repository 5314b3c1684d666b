import BlockLint.Block.Tree
import BlockLint.Html.Markup
import BlockLint.Text.WhiteSpace

/-!
Documents as HTML. Inline markup is not read: the text of a block is shown as it stands.
-/
namespace BlockLint.Html

/-- A blank line right after the marker does not count. One between two blocks of the item makes
the list loose, and so do blank lines at the end of any item but the last. -/
def itemIsTight (item : List Block) (isLast : Bool) : Bool :=
  let body :=
    match item with
    | .blank :: rest => rest
    | _ => item
  let content := body.reverse.dropWhile Block.isBlank
  !content.any Block.isBlank && (isLast || content.length == body.length)

/-- The list has no blank line between its items or their blocks. -/
def isTight : List (List Block) → Bool
  | [] => true
  | item :: rest => itemIsTight item rest.isEmpty && isTight rest

def listElement : ListKind → Element
  | .ordered start _ => .orderedList start
  | .bulleted _ => .bulletList

/-- Paragraphs of a tight list stand without tags. -/
def leafPieces (kind : LeafKind) (lines : List Text) (tight : Bool) : List Piece :=
  match kind with
  | .paragraph =>
    let content := [Piece.text (Text.trimEnd (Text.join ['\n'] lines))]
    if tight then content else Piece.enclose .paragraph content
  | .atxHeading level | .setextHeading level =>
    Piece.enclose (.heading level) [.text (Text.trim (Text.join ['\n'] lines))]
  | .thematicBreak => [.thematicBreak]
  | .indentedCode | .fencedCode _ _ _ =>
    Piece.enclose .preformatted
      (Piece.enclose (.code kind.language?) (lines.map fun line => .text (line ++ ['\n'])))

mutual

def blockPieces (tight : Bool) : Block → List Piece
  | .quote children => Piece.enclose .blockQuote (allPieces false children)
  | .list kind items => Piece.enclose (listElement kind) (itemPieces (isTight items) items)
  | .leaf kind lines => leafPieces kind lines tight
  | .blank => []

def allPieces (tight : Bool) : List Block → List Piece
  | [] => []
  | block :: rest => blockPieces tight block ++ allPieces tight rest

def itemPieces (tight : Bool) : List (List Block) → List Piece
  | [] => []
  | item :: rest => Piece.enclose .item (allPieces tight item) ++ itemPieces tight rest

end

/-- The document of the tokens as HTML. -/
def render (tokens : List Token) : Except ReplayError Text :=
  match blocks tokens with
  | .ok document => .ok (write (allPieces false document))
  | .error e => .error e

end BlockLint.Html
