import BlockLint.Proofs.Strict.Recognizers
import BlockLint.Tokenizer

/-!
A tokenizer that works in place. It keeps all tokens in one stream, goes back in it to make a
heading of a paragraph, takes containers off one at a time, and tells all places of a line by byte
offsets. It stops at the first fault.
-/
namespace BlockLint.Strict

/-- The open leaf. A paragraph is told by the place of its first token in the stream. -/
inductive Leaf where
  | none
  | paragraph (start : Nat)
  | indentedCode
  | fencedCode (fence : Fence)
deriving Repr, DecidableEq

namespace Leaf

def isParagraph : Leaf → Bool
  | .paragraph _ => true
  | _ => false

def kind? : Leaf → Option LeafKind
  | .none => Option.none
  | .paragraph _ => some .paragraph
  | .indentedCode => some .indentedCode
  | .fencedCode fence => some fence.leafKind

end Leaf

/-- `held` are the blank lines after indented code. `lead` waits for the next token that consumes
text. -/
structure State where
  containers : Containers
  leaf : Leaf
  tokens : List Token
  held : List HeldBlank
  lead : Text
  reached : Position
deriving Repr, DecidableEq

namespace State

def initial : State where
  containers := []
  leaf := .none
  tokens := []
  held := []
  lead := []
  reached := ⟨1, 1⟩

def emit (state : State) (line : Line) (offset : Nat) (kind : TokenKind) (literal : Text) : State :=
  { state with
    tokens := state.tokens ++ [Tokenizer.tokenAt line offset kind state.lead literal]
    lead := [] }

def emitEnd (state : State) (kind : TokenKind) (position : Position) : State :=
  { state with tokens := state.tokens ++ [endToken kind position] }

def markContent (state : State) : State :=
  { state with containers := state.containers.markContent }

def closeLeaf (state : State) (natural : Bool) (position : Position) : State :=
  match state.leaf.kind? with
  | none => state
  | some leaf =>
    let place := (state.held.head?.map (·.token.position)).getD position
    { state with
      leaf := .none
      tokens :=
        state.tokens ++ endToken (.leafEnd leaf natural) place :: state.held.map (·.token)
      held := [] }

def closeContainer (state : State) (natural : Bool) (position : Position) :
    Except Fault State :=
  let closed := state.closeLeaf natural position
  match closed.containers.getLast? with
  | none => .error .noContainer
  | some frame =>
    .ok ({ closed with containers := closed.containers.dropLast }.emitEnd
      (.containerEnd frame.kind natural) position)

def closeContainers (natural : Bool) (position : Position) : Nat → State → Except Fault State
  | 0, state => .ok state
  | count + 1, state => do
    closeContainers natural position count (← state.closeContainer natural position)

/-- Ends the leaf and all containers but the outermost `depth`. -/
def closeUnmatched (state : State) (depth : Nat) (natural : Bool) (position : Position) :
    Except Fault State :=
  closeContainers natural position (state.containers.length - depth)
    (state.closeLeaf natural position)

def openQuote (state : State) (line : Line) (offset after : Nat) : Except Fault State := do
  let place := offset + spacesAt line.expanded offset
  let literal ← cut line.expanded offset after
  let opened := state.markContent.emit line place (.containerStart .blockQuote none) literal
  .ok { opened with containers := opened.containers ++ [.blockQuote] }

def openList (state : State) (line : Line) (offset : Nat) (start : ItemStart) :
    Except Fault State :=
  let item := start.listItem offset
  match start.kind with
  | .blockQuote => .error .noListMarker
  | .list kind => do
    let literal ← cut line.expanded offset start.consumedEnd
    let opened := state.markContent.emit line start.markerOffset
      (.containerStart start.kind (some item.geometry)) literal
    .ok { opened with containers := opened.containers ++ [.list kind item] }

def nextItem (state : State) (line : Line) (offset : Nat) (start : ItemStart) :
    Except Fault State :=
  let item := start.listItem offset
  match state.containers.setLastItem? item with
  | none => .error .noList
  | some containers => do
    let literal ← cut line.expanded offset start.consumedEnd
    .ok ({ state with containers }.emit line start.markerOffset
      (.newListItem item.geometry start.number) literal)

/-- Opens the container of a marker. While some containers are `unmatched`, these end first. -/
def openMarker (state : State) (line : Line) (depth : Nat) (unmatched : Bool) (offset : Nat) :
    Marker → Except Fault State
  | .quote after => do
    let position := line.position offset
    let closed ← if unmatched then state.closeUnmatched depth false position else .ok state
    (closed.closeLeaf true position).openQuote line offset after
  | .item start => do
    let position := line.position offset
    let first := state.containers[depth]?.map Frame.kind
    let sibling := unmatched && first.any (·.sameListType start.kind)
    let closed ←
      if unmatched then do
        let inner ← state.closeUnmatched (depth + 1) false position
        if sibling then .ok inner
        else inner.closeContainer (first.any ContainerKind.isList) position
      else .ok state
    let ready := closed.closeLeaf true position
    if sibling then ready.nextItem line offset start else ready.openList line offset start

structure Opening where
  state : State
  offset : Nat
  opened : Bool
  unmatched : Bool
deriving Repr, DecidableEq

/-- Opens containers from a byte on. Each marker must lead further, and stay in the line. -/
def openMarkers (line : Line) (depth : Nat) (allMatched : Bool) (opening : Opening) :
    Except Fault Opening := do
  let inParagraph := !opening.opened && allMatched && opening.state.leaf.isParagraph
  match ← Marker.next? inParagraph line.expanded opening.offset with
  | none => .ok opening
  | some marker =>
    let state ← opening.state.openMarker line depth opening.unmatched opening.offset marker
    if _moves : opening.offset < marker.stop ∧ marker.stop ≤ Text.size line.expanded then
      openMarkers line depth allMatched ⟨state, marker.stop, true, false⟩
    else .error (.standstill opening.offset)
termination_by Text.size line.expanded - opening.offset
decreasing_by omega

def literalAt (line : Line) (offset : Nat) : Except Fault Text := do
  .ok ((← cutFrom line.expanded offset) ++ line.ending)

def blankLine (state : State) (line : Line) (offset : Nat) : Except Fault State := do
  let literal ← literalAt line offset
  match state.leaf with
  | .indentedCode =>
    let token := Tokenizer.tokenAt line offset .blankLine state.lead literal
    let rest ← cutFrom line.expanded offset
    .ok { state with held := state.held ++ [⟨token, rest⟩], lead := [] }
  | .paragraph _ =>
    .ok ((state.closeLeaf true (line.position offset)).emit line offset .blankLine literal)
  | _ => .ok (state.emit line offset .blankLine literal)

def paragraphLine (state : State) (line : Line) (offset : Nat) (isLazy : Bool) :
    Except Fault State := do
  let rest ← cutFrom line.expanded offset
  let place := offset + Text.spaces rest
  let started :=
    if state.leaf.isParagraph then state
    else
      let closed := state.closeLeaf true (line.position offset)
      { closed.emit line place (.leafStart .paragraph) [] with
        leaf := .paragraph closed.tokens.length }
  let literal ← literalAt line offset
  let text ← cutFrom rest (Text.spaces rest)
  .ok (started.markContent.emit line place (.leafContent text isLazy) literal)

def setextUnderline (state : State) (line : Line) (offset level : Nat) : Except Fault State :=
  let heading := LeafKind.setextHeading level
  match state.leaf with
  | .paragraph start =>
    match state.tokens[start]? with
    | none => .error (.noToken start)
    | some opening => do
      let tokens := state.tokens.set start { opening with kind := .leafStart heading }
      let literal ← literalAt line offset
      .ok ({ state with tokens, leaf := .none }.emit line (offset + spacesAt line.expanded offset)
        (.leafEnd heading true) literal)
  | _ => .error .noParagraph

def blankContent (blank : HeldBlank) : Except Fault Token := do
  let text ← cutFrom blank.rest (min codeIndent (Text.spaces blank.rest))
  .ok { blank.token with kind := .leafContent text false }

def codeLine (state : State) (line : Line) (offset : Nat) : Except Fault State := do
  let blanks ← state.held.mapM blankContent
  let taken := { state with tokens := state.tokens ++ blanks, held := [] }
  let text ← cutFrom line.expanded (offset + codeIndent)
  let literal ← literalAt line offset
  .ok (taken.markContent.emit line (offset + codeIndent) (.leafContent text false) literal)

def atxHeading (state : State) (line : Line) (offset : Nat) (heading : AtxHeading) :
    Except Fault State := do
  let kind := LeafKind.atxHeading heading.level
  let rest ← cutFrom line.expanded offset
  let opening ← cut rest 0 heading.contentStart
  let started := (state.closeLeaf true (line.position offset)).markContent.emit line
    (offset + Text.spaces rest) (.leafStart kind) opening
  let content ← literalAt line (offset + heading.contentStart)
  .ok ((started.emit line (offset + heading.contentStart) (.leafContent heading.text false)
    content).emitEnd (.leafEnd kind true) (line.position (Text.size line.expanded)))

def thematicBreak (state : State) (line : Line) (offset : Nat) : Except Fault State := do
  let literal ← literalAt line offset
  .ok (((state.closeLeaf true (line.position offset)).markContent.emit line
    (offset + spacesAt line.expanded offset) (.leafStart .thematicBreak) literal).emitEnd
      (.leafEnd .thematicBreak true) (line.position (Text.size line.expanded)))

def openFence (state : State) (line : Line) (offset : Nat) (fence : Fence) :
    Except Fault State := do
  let literal ← literalAt line offset
  let opened := (state.closeLeaf true (line.position offset)).markContent.emit line
    (offset + fence.indent) (.leafStart fence.leafKind) literal
  .ok { opened with leaf := .fencedCode fence }

def fencedLine (state : State) (line : Line) (offset : Nat) (fence : Fence) :
    Except Fault State := do
  let rest ← cutFrom line.expanded offset
  let literal ← literalAt line offset
  if ← closesFence fence rest then
    .ok ({ state with leaf := .none }.emit line (offset + Text.spaces rest)
      (.leafEnd fence.leafKind true) literal)
  else do
    let strip := min (Text.spaces rest) fence.indent
    let text ← cutFrom rest strip
    .ok (state.emit line (offset + strip) (.leafContent text false) literal)

def leafLine (state : State) (line : Line) (offset : Nat) (opened : Bool) :
    Except Fault State := do
  let rest ← cutFrom line.expanded offset
  match ← lineClass rest (!opened && state.leaf.isParagraph) with
  | .blank =>
    let kept := if opened then state.containers else state.containers.closeEmptyItems
    blankLine { state with containers := kept } line offset
  | .setextUnderline level => state.setextUnderline line offset level
  | .indented =>
    match state.leaf with
    | .paragraph _ => state.paragraphLine line offset false
    | .indentedCode => state.codeLine line offset
    | _ =>
      let started := (state.closeLeaf true (line.position offset)).emit line (offset + codeIndent)
        (.leafStart .indentedCode) []
      codeLine { started with leaf := .indentedCode } line offset
  | .atxHeading heading => state.atxHeading line offset heading
  | .thematicBreak => state.thematicBreak line offset
  | .fenceOpen fence => state.openFence line offset fence
  | .text => state.paragraphLine line offset false

def goesOn (state : State) (line : Line) (offset : Nat) : Except Fault Bool := do
  let rest ← cutFrom line.expanded offset
  if !isBlankFrom line.expanded offset && state.leaf.isParagraph then
    .ok (← lineClass rest false).continuesParagraph
  else .ok false

def settle (line : Line) (depth : Nat) : Opening → Except Fault State
  | ⟨state, offset, opened, false⟩ => state.leafLine line offset opened
  | ⟨state, offset, opened, true⟩ => do
    if ← state.goesOn line offset then state.paragraphLine line offset true
    else
      let blank := isBlankFrom line.expanded offset
      let closed ← state.closeUnmatched depth blank (line.position offset)
      closed.leafLine line offset opened

/-- Takes a line from a byte on, up to which it continues `depth` containers. -/
def takeLine (state : State) (line : Line) (depth offset : Nat) : Except Fault State :=
  let allMatched := depth == state.containers.length
  match (if allMatched then state.leaf else .none) with
  | .fencedCode fence => state.fencedLine line offset fence
  | _ => do
    let opening ← openMarkers line depth allMatched ⟨state, offset, false, !allMatched⟩
    settle line depth opening

def step (state : State) (line : Line) : Except Fault State := do
  let (depth, offset) := matchFrom line.expanded 0 state.containers
  let lead ← cut line.expanded 0 offset
  takeLine { state with lead, reached := line.endPosition } line depth offset

def finish (state : State) : Except Fault (List Token) := do
  .ok (← state.closeUnmatched 0 false state.reached).tokens

def runFrom (state : State) : List Line → Except Fault (List Token)
  | [] => state.finish
  | line :: rest => do runFrom (← state.step line) rest

end State

def run (lines : List Line) : Except Fault (List Token) :=
  State.initial.runFrom lines

end BlockLint.Strict
