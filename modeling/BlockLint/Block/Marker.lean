import BlockLint.Block.Cursor
import BlockLint.Block.Kind

/-!
Markers that open a container: the sign of a block quote, and the bullet or number of a list item.
-/
namespace BlockLint

/-- Past a block quote's marker: up to three spaces, the sign, and one space if there is one. -/
def quoteMarker? (c : Cursor) : Option Cursor :=
  if codeIndent ≤ c.indent then none
  else
    match c.rest.drop c.indent with
    | '>' :: ' ' :: _ => some (c.skip (c.indent + 2))
    | '>' :: _ => some (c.skip (c.indent + 1))
    | _ => none

theorem quoteMarker?_length_lt {c after : Cursor} (found : quoteMarker? c = some after) :
    after.rest.length < c.rest.length := by
  unfold quoteMarker? at found
  split at found
  · contradiction
  · split at found
    all_goals first
      | contradiction
      | rename_i rest same
        cases Option.some.inj found
        have room := congrArg List.length same
        simp only [List.length_drop, List.length_cons] at room
        exact c.skip_length_lt _ (by omega) (by omega)

namespace ListKind

def bullets : List Char := ['-', '+', '*']

def delimiters : List Char := ['.', ')']

/-- The longest number of a list marker. -/
def maxDigits : Nat := 9

/-- The list marker at the start of a text, with its width. -/
def marker? (text : Text) : Option (ListKind × Nat) :=
  match text with
  | [] => none
  | c :: _ =>
    if c ∈ bullets then some (.bulleted c, 1)
    else
      let digits := text.takeWhile Char.isDigit
      if digits.length = 0 ∨ maxDigits < digits.length then none
      else
        match text.drop digits.length with
        | d :: _ =>
          if d ∈ delimiters then some (.ordered (Text.valueOf digits) d, digits.length + 1)
          else none
        | [] => none

theorem marker?_width_pos {text : Text} {kind : ListKind} {width : Nat}
    (found : marker? text = some (kind, width)) : 0 < width ∧ 0 < text.length := by
  unfold marker? at found
  split at found
  · contradiction
  · split at found
    · cases Option.some.inj found
      simp
    · simp only at found
      split at found
      · contradiction
      · split at found
        · split at found
          · cases Option.some.inj found
            simp
          · contradiction
        · contradiction

end ListKind

/-- The start of a list item. Offsets count from the start of the line, `contentIndent` from the
cursor at which the item was found. -/
structure ItemStart where
  kind : ListKind
  markerOffset : Nat
  markerEnd : Nat
  consumedEnd : Nat
  contentIndent : Nat
  empty : Bool
deriving Repr, DecidableEq

namespace ItemStart

/-- The widest gap between marker and content. After a wider one the content is code, which starts
one space past the marker. -/
def maxGap : Nat := 4

def find? (c : Cursor) : Option ItemStart :=
  if codeIndent ≤ c.indent then none
  else
    match ListKind.marker? (c.rest.drop c.indent) with
    | none => none
    | some (kind, width) =>
      let reach := c.indent + width
      let after := c.rest.drop reach
      let gap := Text.spaces after
      let found (taken indent : Nat) (empty : Bool) : ItemStart :=
        { kind, empty
          markerOffset := c.offset + c.indent
          markerEnd := c.offset + reach
          consumedEnd := c.offset + reach + taken
          contentIndent := reach + indent }
      if Text.isBlank after then some (found 0 1 true)
      else if gap = 0 then none
      else if gap ≤ maxGap then some (found gap gap false)
      else some (found 1 1 false)

def number? (item : ItemStart) : Option Nat :=
  item.kind.number?

/-- An empty item does not interrupt a paragraph, nor does a number other than 1. -/
def canInterruptParagraph (item : ItemStart) : Bool :=
  !item.empty && (item.number?.all (· == 1))

/-- The cursor past the marker, given the one at which the item was found. -/
def past (item : ItemStart) (c : Cursor) : Cursor :=
  c.skip (item.consumedEnd - c.offset)

theorem past_length_lt {c : Cursor} {item : ItemStart} (found : find? c = some item) :
    (item.past c).rest.length < c.rest.length := by
  unfold find? at found
  split at found
  · contradiction
  · split at found
    · contradiction
    · rename_i kind width marked
      obtain ⟨moves, room⟩ := ListKind.marker?_width_pos marked
      simp only [List.length_drop] at room
      simp only at found
      repeat' split at found
      all_goals first
        | contradiction
        | cases Option.some.inj found
          exact c.skip_length_lt _ (by simp only; omega) (by omega)

end ItemStart
end BlockLint
