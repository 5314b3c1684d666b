import BlockLint.Text

/-!
The Unicode property White_Space, and the cuts that use it.
-/
namespace BlockLint.Text

/-- The ranges of White_Space, in order. -/
def whiteSpace : List (Nat × Nat) :=
  [(0x09, 0x0d), (0x20, 0x20), (0x85, 0x85), (0xa0, 0xa0), (0x1680, 0x1680), (0x2000, 0x200a),
    (0x2028, 0x2029), (0x202f, 0x202f), (0x205f, 0x205f), (0x3000, 0x3000)]

def isWhiteSpace (c : Char) : Bool :=
  inRanges whiteSpace c

def trimEnd (text : Text) : Text :=
  dropTail isWhiteSpace text

def trim (text : Text) : Text :=
  trimEnd (text.dropWhile isWhiteSpace)

/-- The first run of characters that are not white space, if there is one. -/
def firstWord? (text : Text) : Option Text :=
  match text.dropWhile isWhiteSpace with
  | [] => none
  | c :: cs => some ((c :: cs).takeWhile fun d => !isWhiteSpace d)

end BlockLint.Text
