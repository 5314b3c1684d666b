import BlockLint.Text.Quoted
import BlockLint.Token

/-!
Tokens as text, one line each.
-/
namespace BlockLint

def endLabel (natural : Bool) : Text :=
  if natural then "natural" else "forced"

namespace LeafKind

def display (leaf : LeafKind) : Text :=
  match leaf with
  | .atxHeading level | .setextHeading level => leaf.name ++ "(" ++ Text.ofNat level ++ ")"
  | .fencedCode fence length info =>
    leaf.name ++ "(" ++ List.replicate length fence ++ info ++ ")"
  | _ => leaf.name

end LeafKind

/-- The content column, with a mark while the content is pending. -/
def ItemGeometry.display (item : ItemGeometry) : Text :=
  Text.ofNat item.contentColumn ++ (if item.contentPending then ['?'] else [])

namespace ContainerKind

/-- The name with the marker of a list. -/
def display (container : ContainerKind) : Text :=
  match container with
  | .blockQuote => container.name
  | .list (.ordered start delimiter) =>
    container.name ++ "(" ++ Text.ofNat start ++ [delimiter] ++ ")"
  | .list (.bulleted bullet) => container.name ++ "(" ++ [bullet] ++ ")"

end ContainerKind

namespace TokenKind

def display : TokenKind → Text
  | .containerStart container none => "start-" ++ container.display
  | .containerStart container (some item) => "start-" ++ container.display ++ ":" ++ item.display
  | .newListItem item (some number) => "li(" ++ Text.ofNat number ++ "):" ++ item.display
  | .newListItem item none => "li:" ++ item.display
  | .containerEnd container natural => "end-" ++ container.name ++ ":" ++ endLabel natural
  | .leafStart leaf => "start-" ++ leaf.display
  | .leafContent text isLazy =>
    (if isLazy then "lazy-text(" else "text(") ++ Text.quoted text ++ ")"
  | .leafEnd leaf natural => "end-" ++ leaf.display ++ ":" ++ endLabel natural
  | .blankLine => "blank"

end TokenKind

namespace Token

/-- A label and the quoted text, or nothing if the text is empty. -/
def labelled (label text : Text) : Text :=
  if text.isEmpty then [] else label ++ Text.quoted text

def display (token : Token) : Text :=
  "[" ++ Text.ofNat token.position.line ++ ":" ++ Text.ofNat token.position.column ++ "] " ++
    token.kind.display ++ labelled " prefix=" token.lead ++ labelled " " token.literal

/-- One line for each token, without a newline at the end. -/
def dump (tokens : List Token) : Text :=
  Text.join ['\n'] (tokens.map display)

end Token
end BlockLint
