import BlockLint.Token.Display

/-!
The tree of blocks that a token stream stands for, built by replaying the stream. The replay fails
on a stream whose starts and ends do not fit.
-/
namespace BlockLint

inductive Block where
  | quote (children : List Block)
  | list (kind : ListKind) (items : List (List Block))
  | leaf (kind : LeafKind) (lines : List Text)
  | blank

namespace Block

def isBlank : Block → Bool
  | .blank => true
  | _ => false

end Block

/-- A container that is open in a replay. A list always has a current item. -/
inductive OpenBlock where
  | quote (children : List Block)
  | list (kind : ListKind) (done : List (List Block)) (current : List Block)

namespace OpenBlock

def ofKind : ContainerKind → OpenBlock
  | .blockQuote => .quote []
  | .list kind => .list kind [] []

def add (block : Block) : OpenBlock → OpenBlock
  | .quote children => .quote (children ++ [block])
  | .list kind done current => .list kind done (current ++ [block])

def close : OpenBlock → Block
  | .quote children => .quote children
  | .list kind done current => .list kind (done ++ [current])

end OpenBlock

inductive ReplayError where
  | itemOutsideList (token : Token)
  | endWithoutStart (token : Token)
  | contentOutsideLeaf (token : Token)
  | leafEndWithoutStart (token : Token)
  | stillOpen
deriving Repr, DecidableEq

namespace ReplayError

def message : ReplayError → Text
  | .itemOutsideList token => "list item token outside a list: " ++ token.display
  | .endWithoutStart token => "container end without start: " ++ token.display
  | .contentOutsideLeaf token => "leaf content outside a leaf: " ++ token.display
  | .leafEndWithoutStart token => "leaf end without start: " ++ token.display
  | .stillOpen => "containers still open at end of token stream"

end ReplayError

/-- A replay between two tokens: the open containers, innermost first, the blocks of the document
itself, and the lines of the open leaf. -/
structure Replay where
  stack : List OpenBlock
  root : List Block
  lines : Option (List Text)

namespace Replay

def initial : Replay :=
  ⟨[], [], none⟩

/-- Puts a block into the innermost open container, or into the document. -/
def add (block : Block) (replay : Replay) : Replay :=
  match replay.stack with
  | [] => { replay with root := replay.root ++ [block] }
  | innermost :: outer => { replay with stack := innermost.add block :: outer }

/-- A leaf is of the kind that its end tells. -/
def step (replay : Replay) (token : Token) : Except ReplayError Replay :=
  match token.kind with
  | .containerStart container _ =>
    .ok { replay with stack := OpenBlock.ofKind container :: replay.stack }
  | .newListItem _ _ =>
    match replay.stack with
    | .list kind done current :: outer =>
      .ok { replay with stack := .list kind (done ++ [current]) [] :: outer }
    | _ => .error (.itemOutsideList token)
  | .containerEnd _ _ =>
    match replay.stack with
    | innermost :: outer => .ok (add innermost.close { replay with stack := outer })
    | [] => .error (.endWithoutStart token)
  | .leafStart _ => .ok { replay with lines := some [] }
  | .leafContent text _ =>
    match replay.lines with
    | some lines => .ok { replay with lines := some (lines ++ [text]) }
    | none => .error (.contentOutsideLeaf token)
  | .leafEnd kind _ =>
    match replay.lines with
    | some lines => .ok (add (.leaf kind lines) { replay with lines := none })
    | none => .error (.leafEndWithoutStart token)
  | .blankLine => .ok (add .blank replay)

def finish (replay : Replay) : Except ReplayError (List Block) :=
  match replay.stack with
  | [] => .ok replay.root
  | _ :: _ => .error .stillOpen

/-- Replays the tokens after a state. -/
def runFrom (replay : Replay) : List Token → Except ReplayError (List Block)
  | [] => replay.finish
  | token :: rest =>
    match replay.step token with
    | .ok next => runFrom next rest
    | .error e => .error e

end Replay

/-- The blocks of the document that the tokens describe. -/
def blocks (tokens : List Token) : Except ReplayError (List Block) :=
  Replay.initial.runFrom tokens

end BlockLint
