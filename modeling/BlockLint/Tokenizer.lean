import BlockLint.Block.LineClass
import BlockLint.Block.MarkerRun
import BlockLint.Token.OpenLeaf

/-!
From lines to tokens. A line first continues open containers, then opens new ones, and what is left
of it goes to a leaf. What the line writes is final: tokens that may still change are kept with the
open leaf.
-/
namespace BlockLint

def ListItem.geometry (item : ListItem) : ItemGeometry where
  markerColumn := item.markerOffset + 1
  contentColumn := item.contentOffset + 1
  contentPending := item.contentPending

namespace Tokenizer

/-- What is open between two lines, and where the last line ended. -/
structure State where
  containers : Containers
  leaf : OpenLeaf
  reached : Position
deriving Repr, DecidableEq

def State.initial : State where
  containers := []
  leaf := .none
  reached := ⟨1, 1⟩

/-- What part of a line does: the tokens that it writes, and what it leaves open. -/
structure Effect where
  written : List Token
  containers : Containers
  leaf : OpenLeaf
deriving Repr, DecidableEq

/-- A token of `line` at a byte offset of its expanded text. -/
def tokenAt (line : Line) (offset : Nat) (kind : TokenKind) (lead literal : Text) : Token :=
  { kind, position := line.position offset, lead, literal }

/-- The rest of the line with its ending. -/
def literalFrom (line : Line) (c : Cursor) : Text :=
  c.rest ++ line.ending

/-- Opens the container of a marker inside the ones that are open. -/
def openContainer (line : Line) (lead : Text) (containers : Containers) :
    Marker → Token × Containers
  | .quote start after =>
    (tokenAt line (start.offset + start.indent) (.containerStart .blockQuote none) lead
        (start.upTo after),
      containers.markContent ++ [.blockQuote])
  | .item start item =>
    let opened := item.listItem start
    (tokenAt line item.markerOffset (.containerStart (.list item.kind) (some opened.geometry)) lead
        (start.upTo (item.past start)),
      containers.markContent ++ [.list item.kind opened])

/-- Opens the containers of the later markers of a line. -/
def openAll (line : Line) (containers : Containers) : List Marker → List Token × Containers
  | [] => ([], containers)
  | marker :: rest =>
    let (token, opened) := openContainer line [] containers marker
    let (tokens, last) := openAll line opened rest
    (token :: tokens, last)

/-- The first marker of a line ends what the line did not continue. A list item goes on with the
list at its level if that is of its type, and else replaces it. -/
def openFirst (line : Line) (lead : Text) (containers : Containers) (leaf : OpenLeaf)
    (depth : Nat) (marker : Marker) : List Token × Containers :=
  let position := line.position marker.start.offset
  let matched := containers.take depth
  match marker, containers.drop depth with
  | marker, [] =>
    let (token, opened) := openContainer line lead matched marker
    (leaf.close true position ++ [token], opened)
  | .item start item, .list kind current :: inner =>
    let closing := leaf.close false position ++ Containers.close inner false position
    if kind.sameType item.kind then
      let opened := item.listItem start
      (closing ++ [tokenAt line item.markerOffset
          (.newListItem opened.geometry item.number?) lead (start.upTo (item.past start))],
        matched ++ [.list kind opened])
    else
      let (token, opened) := openContainer line lead matched marker
      (closing ++ Containers.close [.list kind current] true position ++ [token], opened)
  | marker, unmatched =>
    let (token, opened) := openContainer line lead matched marker
    (leaf.close false position ++ Containers.close unmatched false position ++ [token], opened)

/-- A line of a paragraph, which it starts if none is open. -/
def paragraphLine (line : Line) (lead : Text) (c : Cursor) (containers : Containers)
    (leaf : OpenLeaf) (isLazy : Bool) : Effect :=
  let offset := c.offset + c.indent
  let content (lead : Text) : Token :=
    tokenAt line offset (.leafContent (paragraphText c.rest) isLazy) lead (literalFrom line c)
  match leaf with
  | .paragraph opening contents =>
    { written := []
      containers := containers.markContent
      leaf := .paragraph opening (contents ++ [content lead]) }
  | _ =>
    { written := leaf.close true (line.position c.offset)
      containers := containers.markContent
      leaf := .paragraph (tokenAt line offset (.leafStart .paragraph) lead []) [content []] }

/-- A line of indented code, which takes in the blank lines held before it. -/
def codeLine (line : Line) (lead : Text) (c : Cursor) (held : List HeldBlank) : List Token :=
  let blank (h : HeldBlank) : Token :=
    { h.token with
      kind := .leafContent (h.rest.drop (min codeIndent (Text.spaces h.rest))) false }
  held.map blank ++
    [tokenAt line (c.offset + codeIndent) (.leafContent (c.rest.drop codeIndent) false) lead
      (literalFrom line c)]

/-- A line while a fence is open: the closing fence, or code as it stands less the fence's
indent. -/
def fencedLine (line : Line) (lead : Text) (c : Cursor) (fence : Fence) : Token × OpenLeaf :=
  if fence.closes c.rest then
    (tokenAt line (c.offset + c.indent) (.leafEnd fence.leafKind true) lead (literalFrom line c),
      .none)
  else
    let strip := min c.indent fence.indent
    (tokenAt line (c.offset + strip) (.leafContent (c.rest.drop strip) false) lead
        (literalFrom line c),
      .fencedCode fence)

/-- The rest of a line whose containers are settled. `opened` tells that the line opened some. -/
def leafLine (line : Line) (lead : Text) (c : Cursor) (containers : Containers) (leaf : OpenLeaf)
    (opened : Bool) : Effect :=
  let here := line.position c.offset
  match LineClass.of c.rest leaf.isParagraph, leaf with
  | .blank, leaf =>
    let kept := if opened then containers else containers.closeEmptyItems
    let token := tokenAt line c.offset .blankLine lead (literalFrom line c)
    match leaf with
    | .indentedCode held =>
      { written := [], containers := kept, leaf := .indentedCode (held ++ [⟨token, c.rest⟩]) }
    | .paragraph _ _ =>
      { written := leaf.close true here ++ [token], containers := kept, leaf := .none }
    | leaf => { written := [token], containers := kept, leaf }
  | .setextUnderline level, .paragraph opening contents =>
    let heading := LeafKind.setextHeading level
    { written :=
        { opening with kind := .leafStart heading } :: contents ++
          [tokenAt line (c.offset + c.indent) (.leafEnd heading true) lead (literalFrom line c)]
      containers, leaf := .none }
  | .setextUnderline _, leaf => { written := [], containers, leaf }
  | .indented, .paragraph opening contents =>
    paragraphLine line lead c containers (.paragraph opening contents) false
  | .indented, .indentedCode held =>
    { written := codeLine line lead c held
      containers := containers.markContent
      leaf := .indentedCode [] }
  | .indented, leaf =>
    { written :=
        leaf.close true here ++
          tokenAt line (c.offset + codeIndent) (.leafStart .indentedCode) lead [] ::
            codeLine line [] c []
      containers := containers.markContent
      leaf := .indentedCode [] }
  | .atxHeading heading, leaf =>
    let content := c.skip heading.contentStart
    let kind := LeafKind.atxHeading heading.level
    { written :=
        leaf.close true here ++
          [tokenAt line (c.offset + c.indent) (.leafStart kind) lead (c.upTo content),
            tokenAt line content.offset (.leafContent heading.text false) []
              (literalFrom line content),
            endToken (.leafEnd kind true) line.endPosition]
      containers := containers.markContent
      leaf := .none }
  | .thematicBreak, leaf =>
    { written :=
        leaf.close true here ++
          [tokenAt line (c.offset + c.indent) (.leafStart .thematicBreak) lead (literalFrom line c),
            endToken (.leafEnd .thematicBreak true) line.endPosition]
      containers := containers.markContent
      leaf := .none }
  | .fenceOpen fence, leaf =>
    { written :=
        leaf.close true here ++
          [tokenAt line (c.offset + fence.indent) (.leafStart fence.leafKind) lead
            (literalFrom line c)]
      containers := containers.markContent
      leaf := .fencedCode fence }
  | .text, leaf => paragraphLine line lead c containers leaf false

/-- A line that opens containers. What follows their markers is for a new leaf. -/
def openedLine (line : Line) (lead : Text) (containers : Containers) (leaf : OpenLeaf)
    (depth : Nat) (first : Marker) (later : List Marker) (c : Cursor) : Effect :=
  let (closing, opened) := openFirst line lead containers leaf depth first
  let (opening, settled) := openAll line opened later
  let last := leafLine line [] c settled .none true
  { last with written := closing ++ opening ++ last.written }

/-- A line that ends the containers which it does not continue. A blank line does so by rule. -/
def unmatchedLine (line : Line) (lead : Text) (c : Cursor) (containers : Containers)
    (leaf : OpenLeaf) (depth : Nat) : Effect :=
  let natural := c.isBlank
  let here := line.position c.offset
  let last := leafLine line lead c (containers.take depth) .none false
  { last with
    written :=
      leaf.close natural here ++ Containers.close (containers.drop depth) natural here ++
        last.written }

/-- What a line does. A line that opens no container and does not continue all of them still goes
on with an open paragraph, if it is text: that is lazy continuation. -/
def lineEffect (containers : Containers) (leaf : OpenLeaf) (line : Line) : Effect :=
  let found := containers.matchLine line.expanded
  let lead := found.lead line.expanded
  let allMatched := found.depth == containers.length
  match (if allMatched then leaf else .none) with
  | .fencedCode fence =>
    let (token, leaf) := fencedLine line lead found.cursor fence
    { written := [token], containers, leaf }
  | _ =>
    match Marker.readAll (allMatched && leaf.isParagraph) found.cursor with
    | (first :: later, c) => openedLine line lead containers leaf found.depth first later c
    | ([], c) =>
      if allMatched then leafLine line lead c containers leaf false
      else if leaf.isParagraph && (LineClass.of c.rest false).continuesParagraph then
        paragraphLine line lead c containers leaf true
      else unmatchedLine line lead c containers leaf found.depth

/-- Takes a line, and gives the tokens that it writes. -/
def step (state : State) (line : Line) : List Token × State :=
  let effect := lineEffect state.containers state.leaf line
  (effect.written,
    { containers := effect.containers, leaf := effect.leaf, reached := line.endPosition })

/-- Ends all that is open at the end of the document. -/
def finish (state : State) : List Token :=
  state.leaf.close false state.reached ++ Containers.close state.containers false state.reached

/-- The tokens of the lines that follow a state. -/
def runFrom (state : State) : List Line → List Token
  | [] => finish state
  | line :: rest =>
    let (written, next) := step state line
    written ++ runFrom next rest

def run (lines : List Line) : List Token :=
  runFrom State.initial lines

end Tokenizer

/-- The tokens of a document. -/
def Source.tokens (source : Source) : List Token :=
  Tokenizer.run source.lines

def tokenize (text : Text) (tabWidth : Nat) : List Token :=
  (Source.ofText text tabWidth).tokens

end BlockLint
