import BlockLint.Block.Container
import BlockLint.Block.MarkerRun

/-!
Recognition does not depend on where in the line it happens. A cursor moved to the right by `width`
finds the same markers and continues the same containers, with every offset moved along.
-/
namespace BlockLint

def Cursor.shift (width : Nat) (c : Cursor) : Cursor :=
  { c with offset := c.offset + width }

/-- An item opened further right. Its content indent counts from the cursor and stays. -/
def ListItem.shift (width : Nat) (item : ListItem) : ListItem :=
  { item with
    markerOffset := item.markerOffset + width
    contentOffset := item.contentOffset + width }

def Frame.shift (width : Nat) : Frame → Frame :=
  Frame.mapItem (ListItem.shift width)

def Containers.shift (width : Nat) (containers : Containers) : Containers :=
  containers.map (Frame.shift width)

def ItemStart.shift (width : Nat) (item : ItemStart) : ItemStart :=
  { item with
    markerOffset := item.markerOffset + width
    markerEnd := item.markerEnd + width
    consumedEnd := item.consumedEnd + width }

def Marker.shift (width : Nat) : Marker → Marker
  | .quote start after => .quote (start.shift width) (after.shift width)
  | .item start found => .item (start.shift width) (found.shift width)

namespace Cursor

@[simp] theorem start_offset (text : Text) : (start text).offset = 0 := rfl

@[simp] theorem start_rest (text : Text) : (start text).rest = text := rfl

@[simp] theorem shift_offset (width : Nat) (c : Cursor) :
    (c.shift width).offset = c.offset + width := rfl

@[simp] theorem shift_rest (width : Nat) (c : Cursor) : (c.shift width).rest = c.rest := rfl

@[simp] theorem shift_indent (width : Nat) (c : Cursor) :
    (c.shift width).indent = c.indent := rfl

@[simp] theorem shift_isBlank (width : Nat) (c : Cursor) :
    (c.shift width).isBlank = c.isBlank := rfl

@[simp] theorem shift_skip (width count : Nat) (c : Cursor) :
    (c.shift width).skip count = (c.skip count).shift width := by
  simp [shift, skip, Nat.add_right_comm]

@[simp] theorem shift_upTo (width : Nat) (c later : Cursor) :
    (c.shift width).upTo (later.shift width) = c.upTo later := by
  simp [shift, upTo, Nat.add_sub_add_right]

end Cursor

theorem quoteMarker?_shift (width : Nat) (c : Cursor) :
    quoteMarker? (c.shift width) = (quoteMarker? c).map (Cursor.shift width) := by
  by_cases deep : codeIndent ≤ c.indent
  · simp [quoteMarker?, deep]
  · simp only [quoteMarker?, Cursor.shift_indent, Cursor.shift_rest, Cursor.shift_skip, deep,
      if_false]
    split <;> rfl

namespace ItemStart

theorem find?_shift (width : Nat) (c : Cursor) :
    find? (c.shift width) = (find? c).map (shift width) := by
  by_cases deep : codeIndent ≤ c.indent
  · simp [find?, deep]
  · cases marked : ListKind.marker? (c.rest.drop c.indent) with
    | none => simp [find?, deep, marked]
    | some marker =>
      by_cases blank : Text.isBlank (c.rest.drop (c.indent + marker.2)) = true
      · simp [find?, deep, marked, blank, shift, Nat.add_right_comm]
      · by_cases tight : Text.spaces (c.rest.drop (c.indent + marker.2)) = 0
        · simp [find?, deep, marked, blank, tight]
        · by_cases narrow : Text.spaces (c.rest.drop (c.indent + marker.2)) ≤ maxGap
          · simp [find?, deep, marked, blank, tight, narrow, shift, Nat.add_right_comm]
          · simp [find?, deep, marked, blank, tight, narrow, shift, Nat.add_right_comm]

@[simp] theorem shift_past (width : Nat) (item : ItemStart) (c : Cursor) :
    (item.shift width).past (c.shift width) = (item.past c).shift width := by
  simp [past, shift, Nat.add_sub_add_right]

@[simp] theorem shift_canInterruptParagraph (width : Nat) (item : ItemStart) :
    (item.shift width).canInterruptParagraph = item.canInterruptParagraph := rfl

@[simp] theorem shift_listItem (width : Nat) (item : ItemStart) (c : Cursor) :
    (item.shift width).listItem (c.shift width) = (item.listItem c).shift width := by
  simp [listItem, shift, ListItem.shift, Nat.add_right_comm]

end ItemStart

theorem Marker.start_shift (width : Nat) (marker : Marker) :
    (marker.shift width).start = marker.start.shift width := by
  cases marker <;> rfl

theorem Marker.readAll_shift (width : Nat) (inParagraph : Bool) (c : Cursor) :
    readAll inParagraph (c.shift width) =
      ((readAll inParagraph c).1.map (shift width), (readAll inParagraph c).2.shift width) := by
  fun_induction readAll inParagraph c with
  | case1 inParagraph c deep =>
    rw [readAll_eq]
    simp [deep]
  | case2 inParagraph c deep underline =>
    rw [readAll_eq]
    simp [deep, underline]
  | case3 inParagraph c deep underline isBreak =>
    rw [readAll_eq]
    simp [deep, underline, isBreak]
  | case4 inParagraph c deep underline isBreak after found markers last same ih =>
    rw [same] at ih
    rw [readAll_eq]
    simp [deep, underline, isBreak, quoteMarker?_shift, found, ih, shift]
  | case5 inParagraph c deep underline isBreak noQuote noItem =>
    rw [readAll_eq]
    simp [deep, underline, isBreak, quoteMarker?_shift, noQuote, ItemStart.find?_shift, noItem]
  | case6 inParagraph c deep underline isBreak noQuote start found weak =>
    rw [readAll_eq]
    simp [deep, underline, isBreak, quoteMarker?_shift, noQuote, ItemStart.find?_shift, found,
      weak]
  | case7 inParagraph c deep underline isBreak noQuote start found strong markers last same ih =>
    rw [same] at ih
    rw [readAll_eq]
    simp [deep, underline, isBreak, quoteMarker?_shift, noQuote, ItemStart.find?_shift, found,
      strong, ih, shift]

theorem Frame.continue?_shift (width : Nat) (frame : Frame) (c : Cursor) :
    (frame.shift width).continue? (c.shift width) =
      (frame.continue? c).map (Cursor.shift width) := by
  cases frame with
  | blockQuote => exact quoteMarker?_shift width c
  | list kind item =>
    by_cases blank : c.isBlank = true
    · simp [shift, mapItem, continue?, ListItem.continue?, ListItem.shift, blank]
    · by_cases deep : item.contentIndent ≤ c.indent
      · cases closed : item.closed <;>
          simp [shift, mapItem, continue?, ListItem.continue?, ListItem.shift, blank, deep, closed]
      · simp [shift, mapItem, continue?, ListItem.continue?, ListItem.shift, blank, deep]

namespace Containers

@[simp] theorem shift_nil (width : Nat) : shift width [] = [] := rfl

@[simp] theorem shift_append (width : Nat) (outer inner : Containers) :
    shift width (outer ++ inner) = shift width outer ++ shift width inner :=
  List.map_append

@[simp] theorem shift_length (width : Nat) (containers : Containers) :
    (shift width containers).length = containers.length :=
  List.length_map _

theorem matchFrom_shift (width : Nat) (c : Cursor) (containers : Containers) :
    matchFrom (c.shift width) (containers.shift width) =
      ⟨(matchFrom c containers).depth, (matchFrom c containers).cursor.shift width⟩ := by
  induction containers generalizing c with
  | nil => rfl
  | cons frame inner ih =>
    have continues := Frame.continue?_shift width frame c
    simp only [shift, List.map_cons, matchFrom, continues]
    cases frame.continue? c with
    | none => rfl
    | some next =>
      have same := ih next
      simp only [shift] at same
      simp only [Option.map_some, same]

end Containers
end BlockLint
