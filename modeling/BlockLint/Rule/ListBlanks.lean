import BlockLint.Plugin

/-!
Blank lines stand before and after every outermost list.
-/
namespace BlockLint.Rule

/-- What the last token was that was not the end of a block. -/
inductive Previous where
  | nothing
  | blank
  | containerStart
  | content
deriving Repr, DecidableEq

/-- A list that has ended, while the token after it is not known yet. -/
structure EndedList where
  lastLine : Nat
  column : Nat
  blankBefore : Bool
  natural : Bool
deriving Repr, DecidableEq

/-- `containers` are the open ones, innermost first. -/
structure ListBlanks where
  containers : List ContainerKind
  previous : Previous
  lastLine : Nat
  listColumn : Nat
  ended : Option EndedList
deriving Repr, DecidableEq

namespace ListBlanks

def initial : ListBlanks where
  containers := []
  previous := .nothing
  lastLine := 0
  listColumn := 0
  ended := none

def insideList (state : ListBlanks) : Bool :=
  state.containers.any ContainerKind.isList

/-- Whether a list that has ended is set off from the token after it. -/
def separated (list : EndedList) (next : TokenKind) : Bool :=
  list.blankBefore ||
    match next with
    | .containerStart _ _ => false
    | .blankLine | .containerEnd _ _ => true
    | _ => list.natural

def afterList (state : ListBlanks) (next : TokenKind) : List Finding :=
  match state.ended with
  | some list =>
    if separated list next then [] else [⟨⟨list.lastLine, list.column⟩, some "after list"⟩]
  | none => []

def next (state : ListBlanks) (token : Token) : ListBlanks × List Finding :=
  let late := state.afterList token.kind
  let state := { state with ended := none }
  match token.kind with
  | .containerStart container _ =>
    let outermost := container.isList && !state.insideList
    let early : List Finding :=
      if outermost && state.previous == .content then [⟨token.position, some "before list"⟩] else []
    ({ state with
        containers := container :: state.containers
        previous := .containerStart
        lastLine := token.position.line
        listColumn := if outermost then token.position.column else state.listColumn },
      late ++ early)
  | .containerEnd _ natural =>
    let inner := { state with containers := state.containers.tail }
    if (state.containers.head?.any ContainerKind.isList) && !inner.insideList then
      ({ inner with
          ended := some
            { lastLine := state.lastLine
              column := state.listColumn
              blankBefore := state.previous == .blank
              natural } },
        late)
    else (inner, late)
  | .leafEnd _ _ => (state, late)
  | .blankLine => ({ state with previous := .blank }, late)
  | .leafStart _ | .leafContent _ _ | .newListItem _ _ =>
    ({ state with previous := .content, lastLine := token.position.line }, late)

end ListBlanks

def listBlanks : Plugin where
  info :=
    { id := "md032", aliases := ["blanks-around-lists"]
      description := "Lists should be surrounded by blank lines" }
  wantsTokens := true
  State := ListBlanks
  state := ListBlanks.initial
  start _ := ListBlanks.initial
  onToken state token := .found (state.next token)
  onFinish state _ := ({ state with ended := none }, .ok [])

end BlockLint.Rule
