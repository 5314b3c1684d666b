import BlockLint.Block.Marker

/-!
The open containers, outermost first, and how far a line continues them.
-/
namespace BlockLint

/-- The open item of a list. Offsets count from the start of the line that opened it. An item
without content is `closed` by a blank line, and then only blank lines continue it. -/
structure ListItem where
  markerOffset : Nat
  contentOffset : Nat
  contentIndent : Nat
  contentPending : Bool
  hasContent : Bool
  closed : Bool
deriving Repr, DecidableEq

namespace ListItem

def markContent (item : ListItem) : ListItem :=
  { item with hasContent := true, contentPending := false }

def closeIfEmpty (item : ListItem) : ListItem :=
  if item.hasContent then item else { item with closed := true }

/-- A blank line continues an item. Any other line does if it is indented to the item's content. -/
def continue? (item : ListItem) (c : Cursor) : Option Cursor :=
  if c.isBlank then some (c.skip (min c.indent item.contentIndent))
  else if !item.closed && item.contentIndent ≤ c.indent then some (c.skip item.contentIndent)
  else none

end ListItem

/-- The item that a marker found at the cursor opens. -/
def ItemStart.listItem (start : ItemStart) (c : Cursor) : ListItem where
  markerOffset := start.markerOffset
  contentOffset := c.offset + start.contentIndent
  contentIndent := start.contentIndent
  contentPending := start.empty
  hasContent := false
  closed := false

inductive Frame where
  | blockQuote
  | list (kind : ListKind) (item : ListItem)
deriving Repr, DecidableEq

namespace Frame

def kind : Frame → ContainerKind
  | .blockQuote => .blockQuote
  | .list kind _ => .list kind

def item? : Frame → Option ListItem
  | .blockQuote => none
  | .list _ item => some item

def mapItem (f : ListItem → ListItem) : Frame → Frame
  | .blockQuote => .blockQuote
  | .list kind item => .list kind (f item)

/-- The cursor past this container's share of a line, if the line continues it. -/
def continue? (c : Cursor) : Frame → Option Cursor
  | .blockQuote => quoteMarker? c
  | .list _ item => item.continue? c

end Frame

/-- The open containers, outermost first. -/
abbrev Containers := List Frame

namespace Containers

/-- How many containers a line continues, and the cursor past their markers. -/
structure Match where
  depth : Nat
  cursor : Cursor
deriving Repr, DecidableEq

/-- The part of a line by which it continues containers. It is ASCII, as cursors are moved. -/
def Match.lead (found : Match) (text : Text) : Text :=
  text.take found.cursor.offset

def matchFrom (c : Cursor) : Containers → Match
  | [] => ⟨0, c⟩
  | frame :: inner =>
    match frame.continue? c with
    | none => ⟨0, c⟩
    | some next =>
      let found := matchFrom next inner
      { found with depth := found.depth + 1 }

def matchLine (containers : Containers) (text : Text) : Match :=
  matchFrom (Cursor.start text) containers

def markContent (containers : Containers) : Containers :=
  containers.map (Frame.mapItem ListItem.markContent)

def closeEmptyItems (containers : Containers) : Containers :=
  containers.map (Frame.mapItem ListItem.closeIfEmpty)

/-- Replaces the innermost container's item. There is none to replace if no container is open or
the innermost is a block quote. -/
def setLastItem? (containers : Containers) (item : ListItem) : Option Containers :=
  match containers.getLast? with
  | some (.list kind _) => some (containers.dropLast ++ [.list kind item])
  | _ => none

end Containers
end BlockLint
