import BlockLint.Block.Heading
import BlockLint.Block.Marker
import BlockLint.Block.ThematicBreak

/-!
The run of container markers at a place in a line.
-/
namespace BlockLint

/-- Markers that open containers on a line, in the order in which they stand. -/
inductive Marker where
  | quote (start after : Cursor)
  | item (start : Cursor) (item : ItemStart)
deriving Repr, DecidableEq

namespace Marker

/-- The cursor before the marker. -/
def start : Marker → Cursor
  | .quote start _ => start
  | .item start _ => start

/-- Reads the markers at the cursor and gives the cursor past them. Where a paragraph could go on
(`inParagraph`), a setext underline is no marker, nor is an item that cannot interrupt the
paragraph. After a marker the paragraph is over. -/
def readAll (inParagraph : Bool) (c : Cursor) : List Marker × Cursor :=
  if codeIndent ≤ c.indent then ([], c)
  else if inParagraph && (setextLevel? c.rest).isSome then ([], c)
  else if isThematicBreak c.rest then ([], c)
  else
    match _found : quoteMarker? c with
    | some after =>
      let (markers, last) := readAll false after
      (.quote c after :: markers, last)
    | none =>
      match _found : ItemStart.find? c with
      | none => ([], c)
      | some start =>
        if inParagraph && !start.canInterruptParagraph then ([], c)
        else
          let (markers, last) := readAll false (start.past c)
          (.item c start :: markers, last)
termination_by c.rest.length
decreasing_by
  · exact quoteMarker?_length_lt ‹_›
  · exact ItemStart.past_length_lt ‹_›

/-- The reading of the first marker, without the proofs that it ends. -/
theorem readAll_eq (inParagraph : Bool) (c : Cursor) :
    readAll inParagraph c =
      if codeIndent ≤ c.indent then ([], c)
      else if inParagraph && (setextLevel? c.rest).isSome then ([], c)
      else if isThematicBreak c.rest then ([], c)
      else
        match quoteMarker? c, ItemStart.find? c with
        | some after, _ => (.quote c after :: (readAll false after).1, (readAll false after).2)
        | none, none => ([], c)
        | none, some start =>
          if inParagraph && !start.canInterruptParagraph then ([], c)
          else
            (.item c start :: (readAll false (start.past c)).1,
              (readAll false (start.past c)).2) := by
  rw [readAll]
  split
  · rfl
  · split
    · rfl
    · split
      · rfl
      · split
        · rename_i found
          rw [found]
        · rename_i noQuote
          rw [noQuote]
          split
          · rename_i noItem
            rw [noItem]
          · rename_i found
            rw [found]

end Marker

end BlockLint
