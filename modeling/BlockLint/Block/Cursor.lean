import BlockLint.Text

/-!
A cursor stands in a line: what is left of the line, and how many bytes lie to its left.

Cursors move over spaces and markers only. These are ASCII, so the characters passed are as many as
the bytes.
-/
namespace BlockLint

structure Cursor where
  offset : Nat
  rest : Text
deriving Repr, DecidableEq

namespace Cursor

def start (text : Text) : Cursor :=
  ⟨0, text⟩

/-- A cursor at any byte offset. -/
def ofOffset (text : Text) (offset : Nat) : Cursor :=
  ⟨offset, Text.seek text offset⟩

/-- The number of spaces at the cursor. -/
def indent (c : Cursor) : Nat :=
  Text.spaces c.rest

def isBlank (c : Cursor) : Bool :=
  Text.isBlank c.rest

def skip (c : Cursor) (count : Nat) : Cursor :=
  ⟨c.offset + count, c.rest.drop count⟩

/-- The text that a move to a later cursor passes over. -/
def upTo (c later : Cursor) : Text :=
  c.rest.take (later.offset - c.offset)

theorem skip_length_lt (c : Cursor) (count : Nat) (moves : 0 < count)
    (room : 0 < c.rest.length) : (c.skip count).rest.length < c.rest.length := by
  simp only [skip, List.length_drop]
  omega

end Cursor

/-- The indent from which a line is code. Markers are indented by less. -/
def codeIndent : Nat := 4

end BlockLint
