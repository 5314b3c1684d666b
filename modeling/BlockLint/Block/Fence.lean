import BlockLint.Block.Cursor
import BlockLint.Block.Kind

/-!
Code fences: a run of backticks or tildes, with an info string after the opening one.
-/
namespace BlockLint

structure Fence where
  char : Char
  length : Nat
  indent : Nat
  info : Text
deriving Repr, DecidableEq

namespace Fence

def backtick : Char := '\x60'

def tilde : Char := '~'

def minLength : Nat := 3

/-- The fence that a line opens. The info string of a backtick fence holds no backtick. -/
def open? (rest : Text) : Option Fence :=
  let indent := Text.spaces rest
  if codeIndent ≤ indent then none
  else
    match rest.drop indent with
    | [] => none
    | char :: after =>
      let length := ((char :: after).takeWhile (· == char)).length
      let info := Text.dropTail (· == ' ') (Text.dropSpaces ((char :: after).drop length))
      if char != backtick && char != tilde then none
      else if length < minLength then none
      else if char == backtick && info.contains backtick then none
      else some { char, length, indent, info }

/-- A line closes a fence if it holds a run of the same character, at least as long, and nothing
else but spaces. -/
def closes (fence : Fence) (rest : Text) : Bool :=
  if codeIndent ≤ Text.spaces rest then false
  else
    let body := Text.dropSpaces rest
    let length := (body.takeWhile (· == fence.char)).length
    fence.length ≤ length && Text.isBlank (body.drop length)

def leafKind (fence : Fence) : LeafKind :=
  .fencedCode fence.char fence.length fence.info

end Fence
end BlockLint
